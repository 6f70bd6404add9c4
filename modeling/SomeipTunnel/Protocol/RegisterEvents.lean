import SomeipTunnel.Protocol.Command

/-!
# The command that registers events

An application registers events with a list of registrations, each with a set of eventgroups behind
a 16-bit count. The command adds up its size while registrations are added, by their counts; the
writer loops over the sets. A set with all 65536 eventgroups has the count zero, and its numbers are
written where nothing was reserved for them.

`Registers.Fits` follows the room in the buffer through the registrations. Where it fails, numbers
are written behind the end of the buffer; where it holds, an error is reported or every set has its
count, and then the command is read back (`register_events_codec_iff`).

Source: vsomeip/implementation/protocol/src/register_event.cpp, register_events_command.cpp
-/

namespace SomeipTunnel.Protocol.Command

open Indexed List Buffer

/-! ### The code -/

/-- Source: `std::set<eventgroup_t>`. -/
abbrev Eventgroups := OrderedMap (Fin (2 ^ 16)) Unit

/-- Source: `register_event`. Any byte can be cast to the types of event and reliability. -/
structure RegisterEvent where
  service : UInt16
  inst : UInt16
  event : UInt16
  eventType : UInt8
  isProvided : Bool
  reliability : UInt8
  isCyclic : Bool
  numEventg : UInt16
  eventgroups : Eventgroups
deriving DecidableEq

/-- The size of a registration without its eventgroups. -/
def staticSize : ℕ := 2 + 2 + 2 + 1 + 1 + 1 + 1 + 2

/-- End with an error if there is no room for `n` bytes. -/
def room (n : ℕ) : Indexed.Writer Error Unit := fun (buffer, index) =>
  if buffer.length < index + n then .error (.error .notEnoughBytes) else .ok ((), buffer, index)

namespace RegisterEvent

/-- Source: `register_event::set_eventgroups`. -/
def setEventgroups (r : RegisterEvent) (groups : Eventgroups) : RegisterEvent :=
  { r with eventgroups := groups, numEventg := UInt16.ofNat groups.entries.length }

def serializeStatic (r : RegisterEvent) : Indexed.Writer Error Unit := do
  put (little 2 r.service.toNat)
  put (little 2 r.inst.toNat)
  put (little 2 r.event.toNat)
  put (little 1 r.eventType.toNat)
  put (little 1 (Subscribe.flag r.isProvided))
  put (little 1 r.reliability.toNat)
  put (little 1 (Subscribe.flag r.isCyclic))
  put (little 2 r.numEventg.toNat)

def serialize (r : RegisterEvent) : Indexed.Writer Error Unit := do
  room staticSize
  r.serializeStatic
  room (r.numEventg.toNat * 2)
  r.eventgroups.entries.forM fun g => put (little 2 g.1.val)

def deserialize : Reader Error RegisterEvent := do
  need staticSize .notEnoughBytes
  let service ← scalar 2 UInt16.ofNat
  let inst ← scalar 2 UInt16.ofNat
  let event ← scalar 2 UInt16.ofNat
  let eventType ← scalar 1 UInt8.ofNat
  let isProvided ← scalar 1 (· != 0)
  let reliability ← scalar 1 UInt8.ofNat
  let isCyclic ← scalar 1 (· != 0)
  let numEventg ← scalar 2 UInt16.ofNat
  need (numEventg.toNat * 2) .notEnoughBytes
  let groups ← times (scalar 2 (Fin.ofNat (2 ^ 16))) numEventg.toNat
  let eventgroups := groups.foldl (fun s g => s.emplace g ()) .empty
  return { service, inst, event, eventType, isProvided, reliability, isCyclic, numEventg,
           eventgroups }

/-- What `add_registration` adds to the size. -/
def countedSize (r : RegisterEvent) : ℕ := staticSize + r.numEventg.toNat * 2

/-- What is written. -/
def writtenSize (r : RegisterEvent) : ℕ := staticSize + r.eventgroups.entries.length * 2

end RegisterEvent

/-- Source: `id_e::REGISTER_EVENT_ID`. -/
def registerEventId : UInt8 := 0x1B

/-- Source: `register_events_command`, with the members of `command`. -/
structure RegisterEventsCommand where
  header : Header
  registrations : List RegisterEvent
deriving DecidableEq

namespace RegisterEventsCommand

/-- Source: `register_events_command::add_registration`; a registration that is refused changes
nothing. -/
def addRegistration (c : RegisterEventsCommand) (r : RegisterEvent) : RegisterEventsCommand :=
  let size := c.header.size.toNat + commandHeaderSize + r.countedSize
  if maxCommandSize < size then c
  else
    { header := { c.header with size := UInt32.ofNat (size - commandHeaderSize) }
      registrations := c.registrations ++ [r] }

/-- A new command to which registrations are added, each with a set of eventgroups. -/
def build (client : UInt16) (registrations : List (RegisterEvent × Eventgroups)) :
    RegisterEventsCommand :=
  registrations.foldl (fun c r => c.addRegistration (r.1.setEventgroups r.2))
    ⟨⟨maxSupportedVersion, client, 0⟩, []⟩

def writeAll (c : RegisterEventsCommand) : Indexed.Writer Error Unit := do
  c.header.serialize registerEventId
  c.registrations.forM RegisterEvent.serialize

/-- What stands in the buffer, which is resized before. -/
def serialize (c : RegisterEventsCommand) (buffer : List UInt8) :
    Except (Failure Error) (List UInt8) :=
  let size := c.header.size.toNat + commandHeaderSize
  if maxCommandSize < size then .error (.error .maxCommandSizeExceeded)
  else Except.map (fun r => r.2.1) (c.writeAll.run (resize buffer size 0, 0))

/-- A registration takes twelve bytes at least, so that the loop ends before its fuel does. -/
def deserialize (buffer : List UInt8) : Except (Failure Error) RegisterEventsCommand :=
  Except.map Prod.fst (((do
    need commandHeaderSize Error.notEnoughBytes
    let header ← deserializeHeader registerEventId
    let registrations ← untilEnd RegisterEvent.deserialize (buffer.length + 1)
    return { header, registrations } : Reader Error _).run buffer).run 0)

/-- An error is reported, or what is written is read as the same registrations. -/
def RoundTrips (c : RegisterEventsCommand) : Prop :=
  ∀ buffer, (∃ e, c.serialize buffer = .error (.error e)) ∨
    ∃ bytes c', c.serialize buffer = .ok bytes ∧ deserialize bytes = .ok c' ∧
      c'.registrations = c.registrations

end RegisterEventsCommand

/-- The registrations are written into the room: the checks refuse one by its count, or it is
written and the others fit behind it. -/
def Fits : ℕ → List RegisterEvent → Prop
  | _, [] => True
  | room, r :: rest =>
      room < r.countedSize ∨ r.writtenSize ≤ room ∧ Fits (room - r.writtenSize) rest

/-! ### Reading any bytes -/

namespace RegisterEvent

theorem safe_deserialize : Safe staticSize deserialize := by
  intro buffer index _
  refine stays_need_bind fun hroom => ?_
  unfold staticSize at hroom ⊢
  refine (takes_scalar 2 _).stays_bind (by omega) fun service => ?_
  refine (takes_scalar 2 _).stays_bind (by omega) fun inst => ?_
  refine (takes_scalar 2 _).stays_bind (by omega) fun event => ?_
  refine (takes_scalar 1 _).stays_bind (by omega) fun eventType => ?_
  refine (takes_scalar 1 _).stays_bind (by omega) fun isProvided => ?_
  refine (takes_scalar 1 _).stays_bind (by omega) fun reliability => ?_
  refine (takes_scalar 1 _).stays_bind (by omega) fun isCyclic => ?_
  refine (takes_scalar 2 _).stays_bind (by omega) fun numEventg => ?_
  refine stays_need_bind fun hgroups => ?_
  refine ((takes_scalar 2 _).times _).stays_bind hgroups fun groups => ?_
  exact ⟨by omega, hgroups⟩

end RegisterEvent

theorem RegisterEventsCommand.ends_deserialize (buffer : List UInt8) :
    Ends (fun _ => True) (RegisterEventsCommand.deserialize buffer) := by
  refine Stays.ends (stays_header le_rfl fun header rest _ hroom => ?_)
  have hloop := RegisterEvent.safe_deserialize.untilEnd (by decide)
    (show buffer.length - commandHeaderSize < buffer.length + 1 by omega) hroom
  exact hloop.bind fun _ _ _ => trivial

/-! ### Writing a registration -/

namespace RegisterEvent

variable (r : RegisterEvent)

/-- The image of a registration. -/
def staticBytes : List UInt8 :=
  little 2 r.service.toNat ++ (little 2 r.inst.toNat ++ (little 2 r.event.toNat ++
    (little 1 r.eventType.toNat ++ (little 1 (Subscribe.flag r.isProvided) ++
      (little 1 r.reliability.toNat ++ (little 1 (Subscribe.flag r.isCyclic) ++
        little 2 r.numEventg.toNat))))))

def groupBytes (groups : List (Fin (2 ^ 16) × Unit)) : List UInt8 :=
  groups.flatMap fun g => little 2 g.1.val

theorem length_staticBytes : r.staticBytes.length = staticSize := by
  simp [staticBytes, staticSize]

theorem length_groupBytes (groups : List (Fin (2 ^ 16) × Unit)) :
    (groupBytes groups).length = groups.length * 2 := by
  simp [groupBytes, length_flatMap]

theorem writes_static : Writes r.serializeStatic r.staticBytes := by
  refine (writes_put _).then ((writes_put _).then ((writes_put _).then ((writes_put _).then ?_)))
  exact (writes_put _).then ((writes_put _).then ((writes_put _).then (writes_put _)))

/-- The image of a registration. -/
def bytes : List UInt8 := r.staticBytes ++ groupBytes r.eventgroups.entries

theorem length_bytes : r.bytes.length = r.writtenSize := by
  rw [bytes, length_append, length_staticBytes, length_groupBytes, writtenSize]

theorem run_room_bind (n : ℕ) (f : Unit → Indexed.Writer Error Unit) (buffer : List UInt8)
    (index : ℕ) : (room n >>= f).run (buffer, index) =
      if buffer.length < index + n then .error (.error .notEnoughBytes)
      else (f ()).run (buffer, index) := by
  change StateT.bind (room n) f (buffer, index) = _
  unfold room StateT.bind
  dsimp only
  split_ifs <;> rfl

/-- A check for no more than is written does not fail. -/
theorem writes_room {w : Indexed.Writer Error Unit} {bs : List UInt8} (h : Writes w bs) {n : ℕ}
    (hn : n ≤ bs.length) : Writes (room n >>= fun _ => w) bs := by
  intro before old after hlength
  rw [run_room_bind, if_neg, h before old after hlength]
  rw [length_append, length_append]
  omega

variable {r} {buffer : List UInt8} {index : ℕ}

theorem writes_serialize (h : r.numEventg.toNat ≤ r.eventgroups.entries.length) :
    Writes r.serialize r.bytes := by
  have hgroups : Writes (r.eventgroups.entries.forM fun g => put (little 2 g.1.val) :
      Indexed.Writer Error Unit) (groupBytes r.eventgroups.entries) :=
    writes_forM fun g _ => writes_put _
  have hcount : r.numEventg.toNat * 2 ≤ (groupBytes r.eventgroups.entries).length := by
    rw [length_groupBytes]
    omega
  refine writes_room (r.writes_static.then (writes_room hgroups hcount)) ?_
  rw [length_append, length_staticBytes]
  omega

/-- Numbers that there is no room for are written behind the end. -/
theorem run_groups_outside {groups : List (Fin (2 ^ 16) × Unit)} (hindex : index ≤ buffer.length)
    (h : buffer.length < index + groups.length * 2) :
    (groups.forM fun g => put (little 2 g.1.val) : Indexed.Writer Error Unit).run
      (buffer, index) = .error .outside := by
  induction groups generalizing buffer index with
  | nil => exact absurd hindex (by simpa using h)
  | cons g groups ih =>
      change (put (little 2 g.1.val) >>= fun _ => groups.forM fun g => put (little 2 g.1.val) :
        Indexed.Writer Error Unit).run (buffer, index) = _
      by_cases hroom : index + (little 2 g.1.val).length ≤ buffer.length
      · have hsame := length_overwrite hroom
        rw [(writes_put (little 2 g.1.val)).run_bind _ hroom]
        rw [length_little] at hroom ⊢
        rw [length_cons] at h
        exact ih (by omega) (by omega)
      · have hput : (put (little 2 g.1.val) : Indexed.Writer Error Unit).run (buffer, index) =
            .error .outside := if_neg hroom
        rw [StateT.run_bind, hput]
        rfl

/-- What the writer does with a registration, by the room that is left. -/
theorem run_serialize (h : r.numEventg.toNat ≤ r.eventgroups.entries.length) :
    r.serialize.run (buffer, index) =
      if buffer.length < index + r.countedSize then .error (.error .notEnoughBytes)
      else if buffer.length < index + r.writtenSize then .error .outside
      else .ok ((), overwrite buffer index r.bytes, index + r.writtenSize) := by
  split_ifs with hcounted hwritten
  · unfold countedSize at hcounted
    unfold serialize
    rw [run_room_bind]
    split_ifs with hstatic
    · rfl
    have hroom : index + r.staticBytes.length ≤ buffer.length := by
      rw [length_staticBytes]
      omega
    rw [r.writes_static.run_bind _ hroom, run_room_bind, if_pos]
    rw [length_overwrite hroom, length_staticBytes]
    omega
  · unfold countedSize at hcounted
    unfold writtenSize at hwritten
    unfold serialize
    rw [run_room_bind, if_neg (by omega)]
    have hroom : index + r.staticBytes.length ≤ buffer.length := by
      rw [length_staticBytes]
      omega
    have hsame := length_overwrite hroom
    rw [r.writes_static.run_bind _ hroom]
    rw [length_staticBytes] at hroom ⊢
    rw [run_room_bind, if_neg (by omega)]
    exact run_groups_outside (by omega) (by omega)
  · have hroom : index + r.bytes.length ≤ buffer.length := by
      rw [length_bytes]
      omega
    rw [(writes_serialize h).run_of_le hroom, length_bytes]

end RegisterEvent

/-- What the writer does with all registrations. -/
theorem run_registrations {regs : List RegisterEvent} {buffer : List UInt8} {index : ℕ}
    (hindex : index ≤ buffer.length)
    (h : ∀ r ∈ regs, r.numEventg.toNat ≤ r.eventgroups.entries.length) :
    (¬ Fits (buffer.length - index) regs →
      (regs.forM RegisterEvent.serialize).run (buffer, index) = .error .outside) ∧
    (Fits (buffer.length - index) regs →
      (regs.forM RegisterEvent.serialize).run (buffer, index) = .error (.error .notEnoughBytes) ∨
        (regs.map RegisterEvent.writtenSize).sum ≤ buffer.length - index) := by
  induction regs generalizing buffer index with
  | nil => exact ⟨fun hnot => absurd trivial hnot, fun _ => Or.inr (Nat.zero_le _)⟩
  | cons r regs ih =>
      obtain ⟨hr, hregs⟩ := forall_mem_cons.mp h
      have hrun : ((r :: regs).forM RegisterEvent.serialize).run (buffer, index) =
          r.serialize.run (buffer, index) >>= fun out =>
            (regs.forM RegisterEvent.serialize).run out.2 := rfl
      rw [hrun, RegisterEvent.run_serialize hr, map_cons, sum_cons]
      unfold Fits
      split_ifs with hcounted hwritten
      · exact ⟨fun hnot => absurd (Or.inl (by omega)) hnot, fun _ => Or.inl rfl⟩
      · refine ⟨fun _ => rfl, fun hfits => ?_⟩
        omega
      · have hroom : index + r.bytes.length ≤ buffer.length := by
          rw [r.length_bytes]
          omega
        have hsame := length_overwrite hroom
        have hless : index + r.writtenSize ≤ (overwrite buffer index r.bytes).length := by
          omega
        have hrest := ih hless hregs
        rw [hsame, ← Nat.sub_sub] at hrest
        refine ⟨fun hnot => hrest.1 fun hfits => hnot (Or.inr ⟨by omega, hfits⟩), fun hfits => ?_⟩
        rcases hfits with hless | ⟨-, hfits⟩
        · omega
        · rcases hrest.2 hfits with herror | hsum
          · exact Or.inl herror
          · exact Or.inr (by omega)

/-! ### The round trip -/

/-- Numbers in order are read as the set that they are from. -/
theorem foldl_emplace {s s' : Eventgroups} {groups : List (Fin (2 ^ 16) × Unit)}
    (h : s'.entries = s.entries ++ groups) :
    (groups.map Prod.fst).foldl (fun s g => s.emplace g ()) s = s' := by
  induction groups generalizing s with
  | nil =>
      rw [append_nil] at h
      exact (OrderedMap.ext h).symm
  | cons g groups ih =>
      have hlt : ∀ e ∈ s.entries, e.1 < g.1 := by
        intro e he
        have hsorted := s'.sorted
        rw [h, pairwise_append] at hsorted
        exact hsorted.2.2 e he g mem_cons_self
      refine ih ?_
      rw [OrderedMap.emplace_of_lt hlt, h, append_assoc, singleton_append]

theorem RegisterEvent.reads_deserialize {r : RegisterEvent}
    (h : r.numEventg.toNat = r.eventgroups.entries.length) :
    Reads RegisterEvent.deserialize r.bytes r := by
  have hgroups : Reads (times (scalar 2 (Fin.ofNat (2 ^ 16)) : Reader Error _)
      (r.eventgroups.entries.map Prod.fst).length)
      ((r.eventgroups.entries.map Prod.fst).flatMap fun g => little 2 g.val)
      (r.eventgroups.entries.map Prod.fst) :=
    reads_times fun g _ => reads_scalar (g := Fin.val) g.isLt (Fin.ofNat_val_eq_self g)
  rw [length_map, ← h, flatMap_map] at hgroups
  have hset : (r.eventgroups.entries.map Prod.fst).foldl (fun s g => s.emplace g ()) .empty =
      r.eventgroups := foldl_emplace rfl
  have hcount : r.numEventg.toNat * 2 ≤ (groupBytes r.eventgroups.entries).length := by
    rw [length_groupBytes, h]
  refine Reads.need ?_ _ (by rw [bytes, length_append, length_staticBytes]; omega)
  rw [bytes, staticBytes]
  refine (reads_uint16 _).bind ((reads_uint16 _).bind ((reads_uint16 _).bind ?_))
  refine (reads_uint8 _).bind ((Subscribe.reads_flag _).bind ((reads_uint8 _).bind ?_))
  refine (Subscribe.reads_flag _).bind ((reads_uint16 _).bind (Reads.need ?_ _ hcount))
  refine hgroups.check ?_
  rw [hset]
  exact reads_pure r

namespace RegisterEventsCommand

/-- What holds for a command while registrations are added. -/
structure Counted (c : RegisterEventsCommand) : Prop where
  size : c.header.size.toNat = (c.registrations.map RegisterEvent.countedSize).sum
  fits : c.header.size.toNat + commandHeaderSize ≤ maxCommandSize
  count : ∀ r ∈ c.registrations, r.numEventg.toNat ≤ r.eventgroups.entries.length

theorem Counted.addRegistration {c : RegisterEventsCommand} (h : c.Counted) (r : RegisterEvent)
    (groups : Eventgroups) : (c.addRegistration (r.setEventgroups groups)).Counted := by
  unfold RegisterEventsCommand.addRegistration
  dsimp only
  split_ifs with hsize
  · exact h
  have hnat : (UInt32.ofNat (c.header.size.toNat + commandHeaderSize +
      (r.setEventgroups groups).countedSize - commandHeaderSize)).toNat =
      c.header.size.toNat + (r.setEventgroups groups).countedSize := by
    unfold maxCommandSize at hsize
    rw [UInt32.toNat_ofNat_of_lt' (show _ < 2 ^ 32 by omega)]
    omega
  refine ⟨?_, ?_, ?_⟩
  · dsimp only
    rw [hnat, h.size, map_append, sum_append, map_singleton, sum_singleton]
  · dsimp only
    rw [hnat]
    omega
  · intro r' hr'
    rcases mem_append.mp hr' with hold | hnew
    · exact h.count r' hold
    · obtain rfl := mem_singleton.mp hnew
      exact UInt16.toNat_ofNat ▸ Nat.mod_le _ _

theorem counted_build (client : UInt16) (registrations : List (RegisterEvent × Eventgroups)) :
    (build client registrations).Counted := by
  have hnew : (⟨⟨maxSupportedVersion, client, 0⟩, []⟩ : RegisterEventsCommand).Counted :=
    ⟨rfl, show 0 + commandHeaderSize ≤ maxCommandSize by decide, by simp⟩
  unfold build
  generalize (⟨⟨maxSupportedVersion, client, 0⟩, []⟩ : RegisterEventsCommand) = c at hnew
  induction registrations generalizing c with
  | nil => exact hnew
  | cons r registrations ih => exact ih _ (hnew.addRegistration r.1 r.2)

variable {c : RegisterEventsCommand}

/-- Sets that take no more room than was counted have their counts. -/
theorem Counted.exact (h : c.Counted)
    (hsum : (c.registrations.map RegisterEvent.writtenSize).sum ≤ c.header.size.toNat) :
    ∀ r ∈ c.registrations, r.numEventg.toNat = r.eventgroups.entries.length := by
  have hcount := h.count
  rw [h.size] at hsum
  generalize c.registrations = regs at hsum hcount
  induction regs with
  | nil => simp
  | cons r regs ih =>
      obtain ⟨hr, hregs⟩ := forall_mem_cons.mp hcount
      have hrest : (regs.map RegisterEvent.countedSize).sum ≤
          (regs.map RegisterEvent.writtenSize).sum := by
        refine sum_le_sum fun r' hr' => ?_
        have := hregs r' hr'
        unfold RegisterEvent.countedSize RegisterEvent.writtenSize
        omega
      rw [map_cons, map_cons, sum_cons, sum_cons,
        RegisterEvent.writtenSize, RegisterEvent.countedSize] at hsum
      exact forall_mem_cons.mpr ⟨by omega, ih (by omega) hregs⟩

/-- What the writer does with the whole command. -/
theorem serialize_cases (h : c.Counted) (buffer : List UInt8) :
    (¬ Fits c.header.size.toNat c.registrations → c.serialize buffer = .error .outside) ∧
    (Fits c.header.size.toNat c.registrations →
      c.serialize buffer = .error (.error .notEnoughBytes) ∨
        (c.registrations.map RegisterEvent.writtenSize).sum ≤ c.header.size.toNat) := by
  have hroom : 0 + (c.header.bytes registerEventId).length ≤
      (resize buffer (c.header.size.toNat + commandHeaderSize) 0).length := by
    rw [Header.length_bytes, length_resize]
    omega
  have hlength := length_overwrite hroom
  rw [length_resize] at hlength
  have hregs := run_registrations (hlength ▸ Nat.le_add_left commandHeaderSize _) h.count
  rw [hlength, Nat.add_sub_cancel] at hregs
  rw [serialize, if_neg (Nat.not_lt.mpr h.fits), writeAll,
    Header.writes_serialize.run_bind _ hroom, Header.length_bytes, Nat.zero_add]
  refine ⟨fun hnot => ?_, fun hfits => ?_⟩
  · rw [hregs.1 hnot]
    rfl
  · rcases hregs.2 hfits with herror | hsum
    · exact Or.inl (by rw [herror]; rfl)
    · exact Or.inr hsum

/-- The image of a command. -/
def bytes (c : RegisterEventsCommand) : List UInt8 :=
  c.header.bytes registerEventId ++ c.registrations.flatMap RegisterEvent.bytes

theorem length_bytes : c.bytes.length =
    commandHeaderSize + (c.registrations.flatMap RegisterEvent.bytes).length := by
  rw [bytes, length_append, Header.length_bytes]

variable (hexact : ∀ r ∈ c.registrations, r.numEventg.toNat = r.eventgroups.entries.length)

include hexact

theorem serialize_of_exact (h : c.Counted) (buffer : List UInt8) :
    c.serialize buffer = .ok c.bytes := by
  have hsizes : (c.registrations.flatMap RegisterEvent.bytes).length = c.header.size.toNat := by
    rw [h.size, length_flatMap]
    refine congrArg List.sum (map_congr_left fun r hr => ?_)
    rw [r.length_bytes, RegisterEvent.writtenSize, RegisterEvent.countedSize, hexact r hr]
  have hregs : Writes (c.registrations.forM RegisterEvent.serialize)
      (c.registrations.flatMap RegisterEvent.bytes) :=
    writes_forM fun r hr => RegisterEvent.writes_serialize (hexact r hr).le
  have hall : Writes c.writeAll c.bytes := Header.writes_serialize.then hregs
  have hlength : (resize buffer (c.header.size.toNat + commandHeaderSize) 0).length =
      c.bytes.length := by
    rw [length_resize, length_bytes, hsizes, Nat.add_comm]
  rw [serialize, if_neg (Nat.not_lt.mpr h.fits), hall.run_fill hlength]
  rfl

theorem deserialize_of_exact : deserialize c.bytes = .ok c := by
  have hroom : 0 + commandHeaderSize ≤ c.bytes.length := by
    rw [length_bytes]
    omega
  have hfuel : (c.registrations.flatMap RegisterEvent.bytes).length < c.bytes.length + 1 := by
    rw [length_bytes]
    omega
  have hloop := run_untilEnd (fun r hr => RegisterEvent.reads_deserialize (hexact r hr))
    (fun r _ => by rw [r.length_bytes, RegisterEvent.writtenSize, staticSize]; omega) hfuel
    (c.header.bytes registerEventId)
  rw [Header.length_bytes, ← bytes] at hloop
  unfold deserialize
  rw [run_need_bind hroom]
  nth_rewrite 2 [bytes]
  rw [Header.run_bind, ← bytes, ReaderT.run_bind, StateT.run_bind, hloop]
  rfl

end RegisterEventsCommand

open RegisterEventsCommand

/-- **Round trip.** A command to which registrations with any sets have been added is read back,
or refused with an error, if and only if the registrations fit where they were counted. Reading of
any bytes ends in the buffer. -/
theorem register_events_codec_iff (client : UInt16)
    (registrations : List (RegisterEvent × Eventgroups)) (buffer : List UInt8) :
    (let c := build client registrations
     c.RoundTrips ↔ Fits (c.registrations.map RegisterEvent.countedSize).sum c.registrations) ∧
    Ends (fun _ => True) (RegisterEventsCommand.deserialize buffer) := by
  refine ⟨?_, RegisterEventsCommand.ends_deserialize buffer⟩
  intro c
  have hcounted : c.Counted := counted_build client registrations
  rw [← hcounted.size]
  refine ⟨fun h => ?_, fun hfits buffer => ?_⟩
  · by_contra hnot
    have houtside := (serialize_cases hcounted []).1 hnot
    rcases h [] with ⟨e, herror⟩ | ⟨bytes, c', hok, -⟩
    · rw [houtside] at herror
      cases herror
    · rw [houtside] at hok
      cases hok
  · rcases (serialize_cases hcounted buffer).2 hfits with herror | hsum
    · exact Or.inl ⟨_, herror⟩
    · have hexact := hcounted.exact hsum
      exact Or.inr ⟨c.bytes, c, serialize_of_exact hexact hcounted buffer,
        deserialize_of_exact hexact, rfl⟩

/-- A set of 65536 eventgroups has the count zero and is written behind the end of the buffer. -/
theorem not_roundTrips_of_length (client : UInt16) (r : RegisterEvent) {groups : Eventgroups}
    (hlength : groups.entries.length = 2 ^ 16) : ¬ (build client [(r, groups)]).RoundTrips := by
  have hcount : (r.setEventgroups groups).numEventg.toNat = 0 := by
    change (UInt16.ofNat groups.entries.length).toNat = 0
    rw [hlength]
    rfl
  have hregs : (build client [(r, groups)]).registrations = [r.setEventgroups groups] := by
    change (addRegistration _ (r.setEventgroups groups)).registrations = _
    rw [addRegistration, if_neg]
    · rfl
    · rw [RegisterEvent.countedSize, hcount]
      exact Nat.not_lt.mpr (show 0 + commandHeaderSize + (staticSize + 0 * 2) ≤ maxCommandSize by
        decide)
  have hcounted := counted_build client [(r, groups)]
  have hsize := hcounted.size
  rw [hregs, map_singleton, sum_singleton, RegisterEvent.countedSize, hcount] at hsize
  have hnot : ¬ Fits (build client [(r, groups)]).header.size.toNat
      (build client [(r, groups)]).registrations := by
    rw [hregs, hsize]
    rintro (hless | ⟨hle, -⟩)
    · rw [RegisterEvent.countedSize, hcount] at hless
      omega
    · change staticSize + groups.entries.length * 2 ≤ _ at hle
      omega
  have houtside := (serialize_cases hcounted []).1 hnot
  intro h
  rcases h [] with ⟨e, herror⟩ | ⟨bytes, c', hok, -⟩
  · rw [houtside] at herror
    cases herror
  · rw [houtside] at hok
    cases hok

/-- All eventgroups. -/
def allEventgroups : Eventgroups where
  entries := (List.finRange (2 ^ 16)).map fun g => (g, ())
  sorted := by
    rw [pairwise_map]
    exact pairwise_lt_finRange _

theorem all_eventgroups_outside :
    ¬ (build 0x1001 [(⟨0x1234, 0x5678, 0x8001, 0, true, 1, false, 0, .empty⟩,
      allEventgroups)]).RoundTrips :=
  not_roundTrips_of_length _ _ (by rw [allEventgroups, length_map, length_finRange])

end SomeipTunnel.Protocol.Command
