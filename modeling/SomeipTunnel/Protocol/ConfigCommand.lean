import SomeipTunnel.Protocol.Command

/-!
# The config command

A host sends settings as pairs of strings. Each string stands behind its length, the pairs stand one
behind the other, and the size in the header says where they end. The reader keeps the position and
the number of bytes that are left apart.

A buffer that is read without an error is a header, the images of whole pairs, and whatever is behind
the size in the header (`ends_deserialize`): a length that reaches beyond the end is an error.

Source: vsomeip/implementation/protocol/src/config_command.cpp
-/

/-- The order of bytes, as `std::less<std::string>` compares them. -/
instance linearOrderByte : LinearOrder UInt8 where
  le_refl _ := UInt8.le_refl _
  le_trans _ _ _ := UInt8.le_trans
  le_antisymm _ _ := UInt8.le_antisymm
  le_total := UInt8.le_total
  lt_iff_le_not_ge a b := by
    rw [UInt8.lt_iff_toNat_lt, UInt8.le_iff_toNat_le, UInt8.le_iff_toNat_le]
    omega
  toDecidableLE := inferInstance

namespace SomeipTunnel.Protocol.Command

open Indexed List

/-- Source: `id_e::CONFIG_ID`. -/
def configId : UInt8 := 0x31

/-- Source: `config_command`, with the members of `command`. -/
structure ConfigCommand where
  header : Header
  configs : OrderedMap (List UInt8) (List UInt8)
deriving DecidableEq

namespace ConfigCommand

/-! ### The code -/

/-- What a pair adds to the size. -/
def pairSize (pair : List UInt8 × List UInt8) : ℕ := 4 * 2 + pair.1.length + pair.2.length

/-- Source: `size` in `serialize`. -/
def totalSize (c : ConfigCommand) : ℕ := commandHeaderSize + (c.configs.entries.map pairSize).sum

/-- The header with the size set. -/
def sized (c : ConfigCommand) : Header :=
  { c.header with size := UInt32.ofNat (c.totalSize - commandHeaderSize) }

def writeString (s : List UInt8) : Indexed.Writer Error Unit := do
  put (little 4 s.length)
  put s

def writeAll (c : ConfigCommand) : Indexed.Writer Error Unit := do
  c.sized.serialize configId
  c.configs.entries.forM fun pair => do
    writeString pair.1
    writeString pair.2

/-- What stands in the buffer, which is resized before. -/
def serialize (c : ConfigCommand) (buffer : List UInt8) : Except (Failure Error) (List UInt8) :=
  if maxCommandSize < c.totalSize then .error (.error .maxCommandSizeExceeded)
  else Except.map (fun r => r.2.1) (c.writeAll.run (Buffer.resize buffer c.totalSize 0, 0))

/-- The function `read`: a string, and the number of bytes that are left. -/
def readString (remaining : ℕ) : Reader Error (List UInt8 × ℕ) := do
  failIf (remaining < 4) Error.notEnoughBytes
  let size ← scalar 4 UInt32.ofNat
  failIf (remaining - 4 < size.toNat) Error.notEnoughBytes
  need size.toNat .notEnoughBytes
  let value ← get size.toNat
  return (value, remaining - 4 - size.toNat)

/-- `while (remaining > 0)`. -/
def readConfigs : ℕ → ℕ → OrderedMap (List UInt8) (List UInt8) →
    Reader Error (OrderedMap (List UInt8) (List UInt8))
  | 0, _, _ => throw .endless
  | fuel + 1, remaining, configs =>
      if 0 < remaining then do
        let (key, remaining) ← readString remaining
        let (value, remaining) ← readString remaining
        readConfigs fuel remaining (configs.assign key value)
      else return configs

/-- A new command reads the buffer. A pair takes eight bytes at least, so that the loop ends before
its fuel does. -/
def deserialize (buffer : List UInt8) : Except (Failure Error) ConfigCommand :=
  Except.map Prod.fst (((do
    need commandHeaderSize Error.notEnoughBytes
    let header ← deserializeHeader configId
    failIf (header.version ≠ 0) Error.unknown
    failIf (buffer.length < commandHeaderSize + header.size.toNat) Error.notEnoughBytes
    let configs ← readConfigs (header.size.toNat + 1) header.size.toNat .empty
    return { header, configs } : Reader Error _).run buffer).run 0)

/-! ### Any bytes -/

/-- The image of a string. -/
def stringBytes (s : List UInt8) : List UInt8 := little 4 s.length ++ s

theorem length_stringBytes (s : List UInt8) : (stringBytes s).length = 4 + s.length := by
  rw [stringBytes, length_append, length_little]

/-- The image of a pair. -/
def pairBytes (pair : List UInt8 × List UInt8) : List UInt8 :=
  stringBytes pair.1 ++ stringBytes pair.2

theorem length_pairBytes (pair : List UInt8 × List UInt8) :
    (pairBytes pair).length = pairSize pair := by
  rw [pairBytes, pairSize, length_append, length_stringBytes, length_stringBytes]
  omega

theorem reads_readString {s : List UInt8} {remaining : ℕ} (h : s.length < 2 ^ 32)
    (hle : (stringBytes s).length ≤ remaining) :
    Reads (readString remaining) (stringBytes s) (s, remaining - (stringBytes s).length) := by
  have hlength := length_stringBytes s
  have hsize : (UInt32.ofNat s.length).toNat = s.length := UInt32.toNat_ofNat_of_lt' h
  refine (reads_failIf Error.notEnoughBytes (by omega)).bind ((reads_size h).bind ?_)
  rw [hsize]
  refine (reads_failIf Error.notEnoughBytes (by omega)).bind (Reads.need ?_ _ le_rfl)
  rw [hlength, ← Nat.sub_sub]
  exact (reads_get s).check (reads_pure _)

/-- What `read` does: it fails, or takes the image of a string from the bytes that are left. -/
theorem stays_readString (before rest : List UInt8) {remaining : ℕ} (h : remaining ≤ rest.length) :
    Stays (fun out i => ∃ rest', rest = stringBytes out.1 ++ rest' ∧ out.1.length < 2 ^ 32 ∧
        out.2 + (stringBytes out.1).length = remaining ∧ i = (before ++ stringBytes out.1).length)
      (((readString remaining).run (before ++ rest)).run before.length) := by
  by_cases hfour : remaining < 4
  · unfold readString
    rw [run_failIf_bind, if_pos hfour]
    trivial
  obtain ⟨size, rest, rfl, hrest⟩ := exists_uint32 rest (by omega)
  by_cases hsize : remaining - 4 < size.toNat
  · unfold readString
    rw [run_failIf_bind, if_neg hfour, (reads_uint32 size).run_bind, run_failIf_bind, if_pos hsize]
    trivial
  -- The length fits, so that the bytes are the image of a string.
  have hlength : (rest.take size.toNat).length = size.toNat := length_take_of_le (by omega)
  have hsplit : little 4 size.toNat ++ rest =
      stringBytes (rest.take size.toNat) ++ rest.drop size.toNat := by
    rw [stringBytes, hlength, append_assoc, take_append_drop]
  have hbytes : (stringBytes (rest.take size.toNat)).length = 4 + size.toNat := by
    rw [length_stringBytes, hlength]
  have hlt : (rest.take size.toNat).length < 2 ^ 32 := by
    rw [hlength]
    exact size.toNat_lt
  have hle : (stringBytes (rest.take size.toNat)).length ≤ remaining := by omega
  have hread := reads_readString hlt hle before (rest.drop size.toNat)
  rw [hsplit, hread]
  exact ⟨_, rfl, hlt, by dsimp only; omega, length_append.symm⟩

/-- The loop takes the images of whole pairs, as many as fill the bytes that are left. -/
theorem stays_readConfigs {fuel remaining : ℕ} (hfuel : remaining < fuel)
    (configs : OrderedMap (List UInt8) (List UInt8)) (before rest : List UInt8)
    (h : remaining ≤ rest.length) :
    Stays (fun out _ => ∃ (pairs : List (List UInt8 × List UInt8)) (after : List UInt8),
        rest = pairs.flatMap pairBytes ++ after ∧ (pairs.flatMap pairBytes).length = remaining ∧
        out = pairs.foldl (fun m pair => m.assign pair.1 pair.2) configs)
      (((readConfigs fuel remaining configs).run (before ++ rest)).run before.length) := by
  induction fuel generalizing remaining configs before rest with
  | zero => exact absurd hfuel (Nat.not_lt_zero _)
  | succ fuel ih =>
      unfold readConfigs
      split_ifs with hpos
      · refine (stays_readString before rest h).bind ?_
        rintro ⟨key, remaining₁⟩ _ ⟨rest, rfl, hkey, rfl, rfl⟩
        rw [length_append] at h
        rw [← append_assoc]
        refine (stays_readString (before ++ stringBytes key) rest (by omega)).bind ?_
        rintro ⟨value, remaining₂⟩ _ ⟨rest, rfl, hvalue, rfl, rfl⟩
        rw [length_append] at h
        rw [← append_assoc (before ++ stringBytes key)]
        have hkeyBytes := length_stringBytes key
        dsimp only at h hfuel ⊢
        have hrest := @ih remaining₂ (by omega) (configs.assign key value)
          (before ++ stringBytes key ++ stringBytes value) rest (by omega)
        refine hrest.mono ?_
        rintro out - ⟨pairs, after, rfl, rfl, hfold⟩
        refine ⟨(key, value) :: pairs, after, ?_, ?_, hfold⟩
        · rw [flatMap_cons, pairBytes, append_assoc, append_assoc]
        · rw [flatMap_cons, pairBytes, length_append, length_append]
          dsimp only
          omega
      · obtain rfl : remaining = 0 := by omega
        exact ⟨[], rest, rfl, rfl, rfl⟩

/-- The buffer that a command is read from: a header, the images of whole pairs as the header says,
and what is behind them. -/
def Holds (buffer : List UInt8) (c : ConfigCommand) : Prop :=
  ∃ (pairs : List (List UInt8 × List UInt8)) (after : List UInt8),
    buffer = c.header.bytes configId ++ (pairs.flatMap pairBytes ++ after) ∧
    (pairs.flatMap pairBytes).length = c.header.size.toNat ∧
    c.configs = pairs.foldl (fun m pair => m.assign pair.1 pair.2) .empty

theorem ends_deserialize (buffer : List UInt8) : Ends (Holds buffer) (deserialize buffer) := by
  refine Stays.ends (stays_header le_rfl fun header rest hbuffer _ => ?_)
  refine stays_failIf_bind fun hversion => stays_failIf_bind fun hroom => ?_
  rw [hbuffer, length_append, Header.length_bytes] at hroom
  have hconfigs := stays_readConfigs (Nat.lt_succ_self header.size.toNat) .empty
    (header.bytes configId) rest (by omega)
  rw [Header.length_bytes, ← hbuffer] at hconfigs
  refine hconfigs.bind ?_
  rintro configs _ ⟨pairs, after, rfl, hlength, hfold⟩
  exact ⟨pairs, after, hbuffer, hlength, hfold⟩

/-! ### The round trip -/

variable {c : ConfigCommand}

/-- The image of a command. -/
def bytes (c : ConfigCommand) : List UInt8 :=
  c.sized.bytes configId ++ c.configs.entries.flatMap pairBytes

theorem length_flatMap_pairBytes (pairs : List (List UInt8 × List UInt8)) :
    (pairs.flatMap pairBytes).length = (pairs.map pairSize).sum := by
  rw [length_flatMap]
  simp only [length_pairBytes]

theorem serialize_eq (h : c.totalSize ≤ maxCommandSize) (buffer : List UInt8) :
    c.serialize buffer = .ok c.bytes := by
  have hpairs : Writes (c.configs.entries.forM fun pair => do
      writeString pair.1
      writeString pair.2) (c.configs.entries.flatMap pairBytes) :=
    writes_forM fun pair _ => ((writes_put _).then (writes_put _)).then
      ((writes_put _).then (writes_put _))
  have hall : Writes c.writeAll c.bytes := Header.writes_serialize.then hpairs
  have hlength : (Buffer.resize buffer c.totalSize 0).length = c.bytes.length := by
    rw [Buffer.length_resize, bytes, length_append, Header.length_bytes,
      length_flatMap_pairBytes, totalSize]
  have hrun := hall.run_fill hlength
  rw [serialize, if_neg (Nat.not_lt.mpr h), hrun]
  rfl

/-- Pairs in the order of their keys are read as the map that they are from. -/
theorem reads_readConfigs {m m' : OrderedMap (List UInt8) (List UInt8)}
    {pairs : List (List UInt8 × List UInt8)} (h : m'.entries = m.entries ++ pairs)
    (hlt : (pairs.flatMap pairBytes).length < 2 ^ 32) {fuel : ℕ}
    (hfuel : (pairs.flatMap pairBytes).length < fuel) :
    Reads (readConfigs fuel (pairs.flatMap pairBytes).length m) (pairs.flatMap pairBytes) m' := by
  obtain ⟨fuel, rfl⟩ := Nat.exists_eq_add_one_of_ne_zero (Nat.ne_zero_of_lt hfuel)
  induction pairs generalizing m fuel with
  | nil =>
      obtain rfl : m' = m := OrderedMap.ext (by rw [h, append_nil])
      exact reads_pure _
  | cons pair pairs ih =>
      obtain ⟨key, value⟩ := pair
      have hkeyBytes := length_stringBytes key
      have hvalueBytes := length_stringBytes value
      rw [flatMap_cons, pairBytes, length_append, length_append] at hlt hfuel ⊢
      dsimp only at hlt hfuel ⊢
      have hbelow : ∀ e ∈ m.entries, e.1 < key := by
        intro e he
        have hsorted := m'.sorted
        rw [h, pairwise_append] at hsorted
        exact hsorted.2.2 e he (key, value) mem_cons_self
      have hnext : m'.entries = (m.assign key value).entries ++ pairs := by
        rw [OrderedMap.assign_of_lt hbelow, h, append_assoc, singleton_append]
      obtain ⟨fuel, rfl⟩ := Nat.exists_eq_add_one_of_ne_zero (show fuel ≠ 0 by omega)
      have hrest := ih hnext (by omega) fuel (by omega)
      unfold readConfigs
      rw [if_pos (by omega), append_assoc]
      refine (reads_readString (s := key) (by omega) (by omega)).bind ?_
      refine (reads_readString (s := value) (by omega) (by omega)).bind ?_
      rwa [Nat.add_assoc, Nat.add_sub_cancel_left, Nat.add_sub_cancel_left]

theorem deserialize_bytes (h : c.totalSize ≤ maxCommandSize) (hversion : c.header.version = 0) :
    deserialize c.bytes = .ok ⟨c.sized, c.configs⟩ := by
  have hsize : (c.configs.entries.flatMap pairBytes).length = c.totalSize - commandHeaderSize := by
    rw [length_flatMap_pairBytes, totalSize, Nat.add_sub_cancel_left]
  have hlt : c.totalSize - commandHeaderSize < 2 ^ 32 := by
    unfold maxCommandSize at h
    omega
  have hheader : c.sized.size.toNat = (c.configs.entries.flatMap pairBytes).length := by
    rw [hsize]
    exact UInt32.toNat_ofNat_of_lt' hlt
  have hconfigs : Reads (readConfigs (c.sized.size.toNat + 1) c.sized.size.toNat .empty)
      (c.configs.entries.flatMap pairBytes) c.configs := by
    rw [hheader]
    exact reads_readConfigs rfl (hsize ▸ hlt) (Nat.lt_succ_self _)
  have hread := hconfigs.rest (c.sized.bytes configId)
  have hroom : 0 + commandHeaderSize ≤ c.bytes.length := by
    simp [bytes]
  have hversion' : ¬ c.sized.version ≠ 0 := not_not.mpr hversion
  unfold deserialize
  rw [run_need_bind hroom, bytes, Header.run_bind, run_failIf_bind, if_neg hversion',
    run_failIf_bind, if_neg (by simp [hheader]), ReaderT.run_bind, StateT.run_bind]
  rw [Header.length_bytes] at hread
  rw [hread]
  rfl

end ConfigCommand

open ConfigCommand

/-- **Round trip, and reading of any bytes.** The map of a new command is read back from what is
written, unless that is too large and the error says so. Whatever the bytes are, reading them ends
in the buffer, with an error or with the pairs that stand there behind their lengths. -/
theorem config_codec :
    (∀ (client : UInt16) (configs : OrderedMap (List UInt8) (List UInt8)) (buffer : List UInt8),
      let c : ConfigCommand := ⟨⟨maxSupportedVersion, client, 0⟩, configs⟩
      (c.serialize buffer >>= ConfigCommand.deserialize) =
        if c.totalSize ≤ maxCommandSize then .ok ⟨c.sized, configs⟩
        else .error (.error .maxCommandSizeExceeded)) ∧
    ∀ buffer, Ends (Holds buffer) (ConfigCommand.deserialize buffer) := by
  refine ⟨fun client configs buffer => ?_, ends_deserialize⟩
  intro c
  split_ifs with h
  · rw [ConfigCommand.serialize_eq h]
    exact (pure_bind c.bytes ConfigCommand.deserialize).trans
      (ConfigCommand.deserialize_bytes h rfl)
  · rw [ConfigCommand.serialize, if_pos (Nat.lt_of_not_le h)]
    rfl

end SomeipTunnel.Protocol.Command
