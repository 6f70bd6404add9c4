import SomeipTunnel.Sd.Entry

/-!
# Reading entries

The reads of `SomeipTunnel.Sd.Entry` follow decoders of byte strings, and an entry is read back up to
its runs: of a run of `n` indices the number on the wire is `n % 16`, so that the run that is read is
the first `n % 16` of its indices.

* `IsRun.push`: what `assign_option` keeps are numbers one after the other.
* `reads_entry`: an entry is read back as `Entry.received`.
-/

namespace SomeipTunnel.Sd

open Codec Cursor Cursor.Parse Someip List

/-! ### Runs -/

/-- The numbers from the first on. -/
def IsRun (run : List ℕ) : Prop := ∃ first, run = List.range' first run.length

theorem isRun_nil : IsRun [] := ⟨0, rfl⟩

theorem perm_push (run : List ℕ) (i : ℕ) : (Entry.push run i).Perm (run ++ [i]) :=
  perm_insertionSort _ _

variable {run : List ℕ} {e : Entry} {i : ℕ}

theorem mem_push {j : ℕ} : j ∈ Entry.push run i ↔ j ∈ run ∨ j = i := by
  rw [(perm_push run i).mem_iff, mem_append, mem_singleton]

/-- The numbers in order are the only list in order with these numbers. -/
theorem isRun_push_of_perm (first number : ℕ)
    (h : (run ++ [i]).Perm (List.range' first number)) : IsRun (Entry.push run i) := by
  have heq : Entry.push run i = List.range' first number :=
    ((perm_push run i).trans h).eq_of_pairwise' (pairwise_insertionSort _ _)
      (pairwise_le_range' 1)
  rw [heq]
  exact ⟨first, by rw [length_range']⟩

/-- A run that is extended by a number next to it is one. -/
theorem IsRun.push (h : IsRun run) (hi : Entry.adjoins run i = true) :
    IsRun (Entry.push run i) := by
  obtain ⟨first, hrun⟩ := h
  generalize run.length = number at hrun
  subst hrun
  simp only [Entry.adjoins, Bool.or_eq_true, List.isEmpty_iff, beq_iff_eq] at hi
  rcases number with - | number
  · exact isRun_push_of_perm i 1 (List.Perm.refl _)
  rcases hi with (hnil | hhead) | hlast
  · cases hnil
  · obtain rfl : first = i + 1 := Option.some.inj hhead
    refine isRun_push_of_perm i (number + 2) ?_
    exact List.perm_append_singleton _ _
  · have hend : first + number + 1 = i := by
      rw [List.getLast?_range'] at hlast
      simpa using hlast
    refine isRun_push_of_perm first (number + 2) ?_
    rw [List.range'_concat (n := number + 1), ← hend]
    simp [Nat.add_assoc]

/-- What is read of a run, for a number that it has. -/
theorem indices_of_isRun (h : IsRun run) (hlt : ∀ i ∈ run, i < 256) {number : ℕ}
    (hnumber : number ≤ run.length) :
    indices (UInt8.ofNat (run.head?.getD 0)).toNat number = run.take number := by
  obtain ⟨first, hrun⟩ := h
  generalize run.length = n at hrun hnumber
  subst hrun
  refine ext_getElem (by simp [indices, hnumber]) fun i h₁ h₂ => ?_
  have hi : i < n := by
    rw [length_take, length_range'] at h₂
    omega
  have hfirst : (List.range' first n).head?.getD 0 = first := by
    rw [List.head?_range', if_neg (by omega)]
    rfl
  have hbelow : first + i < 256 := hlt _ (mem_range'_1.mpr (by omega))
  have hbyte : (UInt8.ofNat first).toNat = first :=
    UInt8.toNat_ofNat_of_lt' (Nat.lt_of_le_of_lt (Nat.le_add_right _ _) hbelow)
  simp only [indices, hfirst, hbyte, getElem_map, getElem_range, getElem_take,
    getElem_range', Nat.one_mul]
  exact Nat.mod_eq_of_lt hbelow

/-! ### Decoders -/

def serviceDetail : Decoder Detail := do return .service (← long false)

def eventgroupDetail : Decoder Detail := do
  let reserved ← short
  let eventgroup ← short
  return .eventgroup reserved eventgroup

/-- An entry whose class is given by what it reads of its own. -/
def entryWith (detail : Decoder Detail) : Decoder Entry := do
  let itsType ← byte
  let index1 ← byte
  let index2 ← byte
  let itsNumbers ← byte
  let service ← short
  let inst ← short
  let majorVersion ← byte
  let ttl ← long true
  let detail ← detail
  return {
    type := EntryType.ofByte itsType
    service := service
    inst := inst
    majorVersion := majorVersion
    ttl := ttl
    detail := detail
    run1 := indices index1.toNat (itsNumbers.toNat / 16)
    run2 := indices index2.toNat (itsNumbers.toNat % 16) }

/-- The entry at the front of a byte string. -/
def entry : Decoder Entry := do
  let tmpEntryType ← ahead 0
  if (EntryType.ofByte tmpEntryType).isServiceEntry then entryWith serviceDetail
  else if (EntryType.ofByte tmpEntryType).isEventgroupEntry then entryWith eventgroupDetail
  else failure

theorem follows_deserializeServiceDetail : Follows deserializeServiceDetail serviceDetail :=
  (follows_deserialize32 false).bind fun _ => follows_pure _

theorem follows_deserializeEventgroupDetail :
    Follows deserializeEventgroupDetail eventgroupDetail :=
  follows_deserialize16.bind fun _ => follows_deserialize16.bind fun _ => follows_pure _

theorem follows_deserializeEntryWith {p : Parse Detail} {d : Decoder Detail} (h : Follows p d) :
    Follows (deserializeEntryWith p) (entryWith d) :=
  follows_deserialize8.bind fun _ => follows_deserialize8.bind fun _ =>
    follows_deserialize8.bind fun _ => follows_deserialize8.bind fun _ =>
      follows_deserialize16.bind fun _ => follows_deserialize16.bind fun _ =>
        follows_deserialize8.bind fun _ => (follows_deserialize32 true).bind fun _ =>
          h.bind fun _ => follows_pure _

/-- Where a byte remains, an entry is read as from the bytes that remain. -/
theorem followsAt_deserializeEntry {c : Cursor} (hc : c.Sound) (h0 : c.remaining ≠ 0) :
    FollowsAt deserializeEntry entry c := by
  refine (followsAt_lookAhead hc h0).bind_follows hc fun tmpEntryType => ?_
  by_cases hservice : (EntryType.ofByte tmpEntryType).isServiceEntry = true
  · rw [if_pos hservice, if_pos hservice]
    exact follows_deserializeEntryWith follows_deserializeServiceDetail
  · rw [if_neg hservice, if_neg hservice]
    exact follows_guard (follows_deserializeEntryWith follows_deserializeEventgroupDetail)

/-- An entry takes a byte at least. -/
theorem lt_of_run_entry {data rest : List UInt8}
    (h : entry.run data = some (e, rest)) : rest.length < data.length := by
  have hwith : ∀ {d}, AtLeast 0 d → AtLeast 1 (entryWith d) := fun hd =>
    atLeast_byte.bind fun _ => atLeast_byte.bind_zero fun _ => atLeast_byte.bind_zero fun _ =>
      atLeast_byte.bind_zero fun _ => atLeast_short.bind_zero fun _ =>
        atLeast_short.bind_zero fun _ => atLeast_byte.bind_zero fun _ =>
          atLeast_long_true.bind_zero fun _ => hd.bind_zero fun _ => atLeast_pure _
  have hservice : AtLeast 0 serviceDetail := atLeast_long.bind_zero fun _ => atLeast_pure _
  have heventgroup : AtLeast 0 eventgroupDetail :=
    atLeast_short.bind_zero fun _ => atLeast_short.bind_zero fun _ => atLeast_pure _
  obtain ⟨b, mid, hahead, hrun⟩ := run_bind_eq_some.mp h
  have hmid : mid = data := by
    rw [run_ahead] at hahead
    obtain ⟨_, -, heq⟩ := Option.map_eq_some_iff.mp hahead
    exact (Prod.mk.inj heq).2.symm
  subst hmid
  split_ifs at hrun
  · exact hwith hservice _ _ _ hrun
  · exact hwith heventgroup _ _ _ hrun
  · cases hrun

/-! ### Entries are read back -/

namespace Entry

/-- The class of the entry is that of its type. -/
def OfKind (e : Entry) : Prop :=
  match e.detail with
  | .service _ => e.type.isServiceEntry = true
  | .eventgroup .. => e.type.isEventgroupEntry = true

/-- The entry fits the format, its runs up to their numbers. -/
structure WellFormed (e : Entry) : Prop where
  ofKind : e.OfKind
  ttl : e.ttl.toNat < 2 ^ 24
  isRun1 : IsRun e.run1
  isRun2 : IsRun e.run2
  lt1 : ∀ i ∈ e.run1, i < 256
  lt2 : ∀ i ∈ e.run2, i < 256

/-- The first indices of a run, as many as its number on the wire. -/
def kept (run : List ℕ) : List ℕ := run.take (run.length % 16)

/-- What is read of an entry. -/
def received (e : Entry) : Entry :=
  { e with
    run1 := kept e.run1
    run2 := kept e.run2
    detail := e.detail.cleared }

theorem toNat_numberOfOptions (e : Entry) : e.numberOfOptions.toNat / 16 = e.run1.length % 16 ∧
    e.numberOfOptions.toNat % 16 = e.run2.length % 16 := by
  have h : e.numberOfOptions.toNat = (16 * e.run1.length + e.run2.length % 16) % 256 :=
    UInt8.toNat_ofNat'
  rw [h]
  omega

end Entry

theorem entryType_ofByte_toByte (type : EntryType) : EntryType.ofByte type.toByte = type := by
  cases type <;> rfl

theorem not_isServiceEntry {type : EntryType} (h : type.isEventgroupEntry = true) :
    ¬ type.isServiceEntry = true := by
  revert h
  cases type <;> decide

theorem reads_entryWith (h : e.WellFormed) {d : Decoder Detail} {detail : Detail} {bs : List UInt8}
    (hd : Reads d bs detail) :
    Reads (entryWith d)
      (serialize8 e.type.toByte ++ (serialize8 (UInt8.ofNat (e.run1.head?.getD 0)) ++
        (serialize8 (UInt8.ofNat (e.run2.head?.getD 0)) ++ (serialize8 e.numberOfOptions ++
          (serialize16 e.service ++ (serialize16 e.inst ++ (serialize8 e.majorVersion ++
            (serialize32 e.ttl true ++ bs))))))))
      { e with run1 := Entry.kept e.run1, run2 := Entry.kept e.run2, detail := detail } := by
  obtain ⟨h1, h2⟩ := e.toNat_numberOfOptions
  refine (reads_byte _).bind <| (reads_byte _).bind <| (reads_byte _).bind <|
    (reads_byte _).bind <| (reads_short _).bind <| (reads_short _).bind <| (reads_byte _).bind <|
      (reads_long_of_lt h.ttl).bind <| hd.check ?_
  rw [h1, h2, indices_of_isRun h.isRun1 h.lt1 (Nat.mod_le _ _),
    indices_of_isRun h.isRun2 h.lt2 (Nat.mod_le _ _), entryType_ofByte_toByte]
  exact reads_pure _

/-- **Entries are read back** from their bytes, up to the ends of their runs. -/
theorem reads_entry (h : e.WellFormed) : Reads entry e.serialize e.received := by
  intro rest
  have hahead : (ahead 0).run (e.serialize ++ rest) =
      some (e.type.toByte, e.serialize ++ rest) := by
    rw [run_ahead, Entry.serialize, serialize8_eq]
    rfl
  refine run_bind_eq_some.mpr ⟨_, _, hahead, ?_⟩
  rw [entryType_ofByte_toByte]
  have hkind := h.ofKind
  unfold Entry.OfKind at hkind
  unfold Entry.serialize Entry.received
  rcases hdetail : e.detail with minorVersion | ⟨reserved, eventgroup⟩
  · rw [hdetail] at hkind
    rw [if_pos hkind]
    exact reads_entryWith h ((reads_long minorVersion).check (reads_pure _)) rest
  · rw [hdetail] at hkind
    rw [if_neg (not_isServiceEntry hkind), if_pos hkind]
    exact reads_entryWith h ((reads_short 0).bind
      ((reads_short eventgroup).check (reads_pure (Detail.eventgroup 0 eventgroup)))) rest

theorem length_serialize_entry (e : Entry) : e.serialize.length = 16 := by
  unfold Entry.serialize
  cases e.detail <;> simp [serialize8, serialize16, serialize32]

end SomeipTunnel.Sd
