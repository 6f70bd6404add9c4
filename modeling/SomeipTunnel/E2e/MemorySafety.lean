import SomeipTunnel.E2e.CrcDivision
import SomeipTunnel.E2e.Detection
import SomeipTunnel.E2e.RoundTrip

/-!
# Accesses outside the buffer

The profiles 01 and custom, and for all five the question whether `protect` and `check` stay inside
the buffer (`Configured.AccessesInside`). Each profile has a test of the length of its own:

* **custom** asks for all that it accesses;
* **04, 05, 07** ask for configured lengths, which say nothing about the offset of the header;
* **01** compares the offsets with the length by `≤`, so an offset behind the last byte passes.

`accesses_inside_iff`: they stay inside iff what passes the test has room for what is accessed.

Source: vsomeip/implementation/e2e_protection/src/e2e/profile/profile01 and profile_custom
(checker.cpp, protector.cpp, profile_01.cpp, profile_custom.cpp), e2e_provider_impl.cpp
-/

namespace SomeipTunnel.E2e

/-! ### Profile 01 -/

/-- Source: `_buffer[index] = value`. -/
def writeByte (value : UInt8) (buffer : List UInt8) (index : ℕ) : Option (List UInt8) :=
  if index < buffer.length then some (buffer.set index value) else none

namespace Profile01

/-- Source: `p01_data_id_mode`; `other` are the values without a name, which a configuration can
have. -/
inductive DataIdMode
  | both
  | alt
  | low
  | nibble
  | other
deriving DecidableEq, Repr

/-- The cast of a configured value: its low byte counts. -/
def DataIdMode.ofValue (value : BitVec 16) : DataIdMode :=
  match (value.setWidth 8).toNat with
  | 0 => both
  | 1 => alt
  | 2 => low
  | 3 => nibble
  | _ => other

/-- Source: `profile01::profile_config`; all but `crcOffset` are in bits. -/
structure Config where
  crcOffset : BitVec 16
  dataId : BitVec 16
  dataIdMode : DataIdMode
  dataLength : BitVec 16
  counterOffset : BitVec 16
  dataIdNibbleOffset : BitVec 16

variable (config : Config)

/-- Source: `profile_01::is_buffer_length_valid`. -/
def isBufferLengthValid (buffer : List UInt8) : Bool :=
  decide (config.dataLength.toNat / 8 + 1 ≤ buffer.length ∧
    config.crcOffset.toNat ≤ buffer.length ∧
    config.counterOffset.toNat / 8 ≤ buffer.length ∧
    config.dataIdNibbleOffset.toNat / 8 ≤ buffer.length)

def dataIdLow : UInt8 := UInt8.ofBitVec (config.dataId.setWidth 8)

def dataIdHigh : UInt8 := UInt8.ofBitVec ((config.dataId >>> 8).setWidth 8)

/-- The check value of the data id, with which the one of the buffer starts. -/
def dataIdCrc : BitVec 8 :=
  match config.dataIdMode with
  | .both => calculateProfile01 [dataIdHigh config] (calculateProfile01 [dataIdLow config] 0xFF)
  | .low => calculateProfile01 [dataIdLow config] 0xFF
  | .nibble => calculateProfile01 [0x00] (calculateProfile01 [dataIdLow config] 0xFF)
  | .alt | .other => 0xFF

/-- Source: `profile_01::compute_crc`. The numbers of the second condition have a sign there. -/
def computeCrc (buffer : List UInt8) : Option (BitVec 8) := do
  let computedCrc ←
    if 1 ≤ config.crcOffset.toNat then
      (bufferView buffer 0 config.crcOffset.toNat).map
        fun before => calculateProfile01 before (dataIdCrc config)
    else some (dataIdCrc config)
  let computedCrc ←
    if config.crcOffset.toNat + 1 < config.dataLength.toNat / 8 then
      (bufferView buffer (config.crcOffset.toNat + 1) buffer.length).map
        fun after => calculateProfile01 after computedCrc
    else some computedCrc
  return computedCrc ^^^ 0xFF

/-- Put a value into the low or into the high half of the byte at an offset in bits. -/
def writeNibble (offset : ℕ) (low high : UInt8) (buffer : List UInt8) : Option (List UInt8) := do
  let byte ← buffer[offset / 8]?
  writeByte (if offset % 8 = 0 then (byte &&& 0xF0) ||| low else (byte &&& 0x0F) ||| high) buffer
    (offset / 8)

/-- Source: `profile01::protector::write_counter`. -/
def writeCounter (counter : UInt8) : List UInt8 → Option (List UInt8) :=
  writeNibble config.counterOffset.toNat (counter &&& 0x0F) ((counter <<< 4) &&& 0xF0)

/-- Source: `profile01::protector::write_data_id`. -/
def writeDataId (buffer : List UInt8) : Option (List UInt8) :=
  if config.dataIdMode = .nibble then
    writeNibble config.dataIdNibbleOffset.toNat (dataIdHigh config &&& 0x0F)
      (UInt8.ofBitVec ((config.dataId >>> 4).setWidth 8) &&& 0xF0) buffer
  else some buffer

/-- Source: `profile01::protector::write_crc`. -/
def writeCrc (buffer : List UInt8) (computedCrc : BitVec 8) : Option (List UInt8) :=
  writeByte (UInt8.ofBitVec computedCrc) buffer config.crcOffset.toNat

/-- Source: `profile01::protector::increment_counter`. -/
def incrementCounter (counter : UInt8) : UInt8 := UInt8.ofNat ((counter.toNat + 1) % 15)

/-- The buffer and the counter behind it. Source: `profile01::protector::protect`. -/
def protect (counter : UInt8) (buffer : List UInt8) : Option (List UInt8 × UInt8) :=
  if isBufferLengthValid config buffer then do
    let buffer ← writeCounter config counter buffer
    let buffer ← writeDataId config buffer
    let computedCrc ← computeCrc config buffer
    let buffer ← writeCrc config buffer computedCrc
    return (buffer, incrementCounter counter)
  else some (buffer, counter)

/-- Source: `profile_01_checker::check`. -/
def check (buffer : List UInt8) : Option CheckStatus :=
  if isBufferLengthValid config buffer then do
    let receivedCrc ← buffer[config.crcOffset.toNat]?
    let calculatedCrc ← computeCrc config buffer
    return if receivedCrc.toBitVec = calculatedCrc then .ok else .wrongCrc
  else some .error

/-- The bytes that are accessed one by one are there. -/
def HoldsFields (buffer : List UInt8) : Prop :=
  config.crcOffset.toNat < buffer.length ∧
    config.counterOffset.toNat / 8 < buffer.length ∧
    (config.dataIdMode = .nibble → config.dataIdNibbleOffset.toNat / 8 < buffer.length)

end Profile01

/-! ### The custom profile -/

namespace ProfileCustom

/-- Source: `profile_custom::profile_config`. -/
structure Config where
  crcOffset : BitVec 16

variable (config : Config)

/-- Source: `profile_custom::is_buffer_length_valid`. -/
def isBufferLengthValid (buffer : List UInt8) : Bool :=
  decide (config.crcOffset.toNat + 4 ≤ buffer.length)

/-- Source: `profile_custom::compute_crc`. -/
def computeCrc (buffer : List UInt8) : Option (BitVec 32) :=
  (bufferView buffer (config.crcOffset.toNat + 4) buffer.length).map calculateProfileCustom

/-- Source: `profile_custom::protector::protect`. -/
def protect (buffer : List UInt8) : Option (List UInt8) :=
  if isBufferLengthValid config buffer then do
    let computedCrc ← computeCrc config buffer
    writeUintBe computedCrc buffer config.crcOffset.toNat
  else some buffer

/-- Source: `profile_custom_checker::check`. -/
def check (buffer : List UInt8) : Option CheckStatus :=
  if isBufferLengthValid config buffer then do
    let receivedCrc ← readUintBe 32 buffer config.crcOffset.toNat
    let calculatedCrc ← computeCrc config buffer
    return if receivedCrc = calculatedCrc then .ok else .wrongCrc
  else some .error

end ProfileCustom

/-! ### All profiles -/

/-- The profiles that have a `make_e2e_profile_config`; those with a counter for each instance are
`Profile`. -/
inductive ProfileName
  | p01
  | counted (p : Profile)
  | custom

/-- A profile with its configuration. -/
inductive Configured
  | p01 (config : Profile01.Config)
  | counted (p : Profile) (config : p.Config)
  | custom (config : ProfileCustom.Config)

/-- Source: `e2e_provider_impl::make_e2e_profile_config`. -/
def makeConfigured (config : CustomParameters) : ProfileName → Configured
  | .p01 => .p01
      { crcOffset := readValueFromConfig config .crcOffset 0
        dataId := readValueFromConfig config .dataId 0
        dataIdMode := .ofValue (readValueFromConfig config .dataIdMode 0)
        dataLength := readValueFromConfig config .dataLength 0
        counterOffset := readValueFromConfig config .counterOffset 8
        dataIdNibbleOffset := readValueFromConfig config .dataIdNibbleOffset 12 }
  | .counted p => .counted p (makeE2eProfileConfig config p)
  | .custom => .custom ⟨readValueFromConfig config .crcOffset 0⟩

namespace Configured

/-- `protect` and `check` access the buffer inside its size, in all states. -/
def AccessesInside (inst : UInt16) (buffer : List UInt8) : Configured → Prop
  | p01 config =>
      (∀ counter, (Profile01.protect config counter buffer).isSome) ∧
        (Profile01.check config buffer).isSome
  | counted p config =>
      (∀ counter, ((p.protector config).protect counter buffer inst).isSome) ∧
        ∀ counter, ((p.checker config).check counter buffer inst).isSome
  | custom config =>
      (ProfileCustom.protect config buffer).isSome ∧ (ProfileCustom.check config buffer).isSome

/-- A buffer that passes the test of the profile has room for what is accessed. -/
def Guarded (inst : UInt16) (buffer : List UInt8) : Configured → Prop
  | p01 config => Profile01.isBufferLengthValid config buffer → Profile01.HoldsFields config buffer
  | counted p config => (p.checker config).admits inst buffer → p.HoldsHeader config buffer
  | custom _ => True

end Configured

/-! ### Profile 01 stays inside -/

namespace Profile01

variable {config : Config} {buffer : List UInt8}

theorem exists_writeByte {index : ℕ} (h : index < buffer.length) (value : UInt8) :
    ∃ buffer', writeByte value buffer index = some buffer' ∧ buffer'.length = buffer.length :=
  ⟨_, if_pos h, List.length_set⟩

theorem exists_writeNibble {offset : ℕ} (h : offset / 8 < buffer.length) (low high : UInt8) :
    ∃ buffer', writeNibble offset low high buffer = some buffer' ∧
      buffer'.length = buffer.length := by
  rw [writeNibble, List.getElem?_eq_getElem h]
  exact exists_writeByte h _

theorem writeNibble_eq_none {offset : ℕ} (h : buffer.length ≤ offset / 8) (low high : UInt8) :
    writeNibble offset low high buffer = none := by
  rw [writeNibble, List.getElem?_eq_none h]
  rfl

theorem exists_writeCounter (h : config.counterOffset.toNat / 8 < buffer.length) (counter : UInt8) :
    ∃ buffer', writeCounter config counter buffer = some buffer' ∧
      buffer'.length = buffer.length := exists_writeNibble h _ _

theorem exists_writeDataId
    (h : config.dataIdMode = .nibble → config.dataIdNibbleOffset.toNat / 8 < buffer.length) :
    ∃ buffer', writeDataId config buffer = some buffer' ∧ buffer'.length = buffer.length := by
  rw [writeDataId]
  split_ifs with hmode
  · exact exists_writeNibble (h hmode) _ _
  · exact ⟨buffer, rfl, rfl⟩

/-- The test is enough for the two parts around the check value. -/
theorem exists_computeCrc (hbefore : config.crcOffset.toNat ≤ buffer.length)
    (hlength : config.dataLength.toNat / 8 ≤ buffer.length) :
    ∃ crc, computeCrc config buffer = some crc := by
  rw [computeCrc]
  split_ifs with hfirst hlast hlast
  · rw [bufferView_eq (Nat.zero_le _) hbefore, bufferView_eq (by omega) le_rfl]
    exact ⟨_, rfl⟩
  · rw [bufferView_eq (Nat.zero_le _) hbefore]
    exact ⟨_, rfl⟩
  · rw [bufferView_eq (by omega) le_rfl]
    exact ⟨_, rfl⟩
  · exact ⟨_, rfl⟩

theorem isSome_protect (hvalid : isBufferLengthValid config buffer)
    (hfields : HoldsFields config buffer) (counter : UInt8) :
    (protect config counter buffer).isSome := by
  obtain ⟨hlength, hcrc, -⟩ := of_decide_eq_true hvalid
  obtain ⟨hindex, hcounter, hnibble⟩ := hfields
  obtain ⟨b₁, hb₁, l₁⟩ := exists_writeCounter hcounter counter
  obtain ⟨b₂, hb₂, l₂⟩ := @exists_writeDataId config b₁ (by rwa [l₁])
  obtain ⟨crc, hcompute⟩ := @exists_computeCrc config b₂ (by omega) (by omega)
  have hroom : config.crcOffset.toNat < b₂.length := by omega
  obtain ⟨b₃, hb₃, -⟩ := exists_writeByte hroom (UInt8.ofBitVec crc)
  rw [protect, if_pos hvalid, hb₁, Option.bind_eq_bind, Option.bind_some, hb₂,
    Option.bind_eq_bind, Option.bind_some, hcompute, Option.bind_some, writeCrc, hb₃]
  rfl

theorem isSome_check (hvalid : isBufferLengthValid config buffer)
    (hindex : config.crcOffset.toNat < buffer.length) : (check config buffer).isSome := by
  obtain ⟨hlength, hcrc, -⟩ := of_decide_eq_true hvalid
  obtain ⟨crc, hcompute⟩ := @exists_computeCrc config buffer hcrc (by omega)
  rw [check, if_pos hvalid, List.getElem?_eq_getElem hindex, hcompute]
  rfl

/-- Each missing byte is accessed, by `check` or by `protect`. -/
theorem holdsFields_of_isSome (hvalid : isBufferLengthValid config buffer)
    (hprotect : (protect config 0 buffer).isSome) (hcheck : (check config buffer).isSome) :
    HoldsFields config buffer := by
  rw [check, if_pos hvalid] at hcheck
  rw [protect, if_pos hvalid] at hprotect
  refine ⟨?_, ?_, fun hmode => ?_⟩ <;> by_contra hlt
  · rw [List.getElem?_eq_none (Nat.le_of_not_lt hlt)] at hcheck
    cases hcheck
  · rw [writeCounter, writeNibble_eq_none (Nat.le_of_not_lt hlt)] at hprotect
    cases hprotect
  · by_cases hcounter : config.counterOffset.toNat / 8 < buffer.length
    · obtain ⟨b₁, hb₁, l₁⟩ := exists_writeCounter hcounter 0
      rw [hb₁, Option.bind_eq_bind, Option.bind_some, writeDataId, if_pos hmode,
        writeNibble_eq_none (by omega)] at hprotect
      cases hprotect
    · rw [writeCounter, writeNibble_eq_none (Nat.le_of_not_lt hcounter)] at hprotect
      cases hprotect

end Profile01

/-! ### The profiles with counters stay inside -/

theorem le_of_readUintBe {w : ℕ} {buffer : List UInt8} {index : ℕ} {value : BitVec w}
    (h : readUintBe w buffer index = some value) : index + w / 8 ≤ buffer.length := by
  by_contra hlt
  rw [readUintBe, if_neg hlt] at h
  cases h

/-- The last field of the header is read, whatever is in the others. -/
theorem Profile.holdsHeader_of_received {p : Profile} {config : p.Config} {inst : UInt16}
    {buffer : List UInt8} (h : ((p.checker config).received inst buffer).isSome) :
    p.HoldsHeader config buffer := by
  obtain ⟨r, hr⟩ := Option.isSome_iff_exists.mp h
  cases p with
  | p04 =>
      simp only [checker, Profile04.checker, Profile04.received, Option.bind_eq_bind,
        Option.bind_eq_some_iff] at hr
      obtain ⟨-, -, -, -, -, -, crc, hcrc, -⟩ := hr
      exact le_of_readUintBe hcrc
  | p05 =>
      simp only [checker, Profile05.checker, Profile05.received, Option.bind_eq_bind,
        Option.bind_eq_some_iff] at hr
      obtain ⟨counter, hcounter, -⟩ := hr
      exact le_of_readUintBe hcounter
  | p07 =>
      simp only [checker, Profile07.checker, Profile07.received, Option.bind_eq_bind,
        Option.bind_eq_some_iff] at hr
      obtain ⟨-, -, -, -, dataId, hdataId, -⟩ := hr
      exact le_of_readUintBe hdataId

theorem Profile.isSome_protect_check {p : Profile} {config : p.Config} {inst : UInt16}
    {buffer : List UInt8} (h : (p.checker config).admits inst buffer → p.HoldsHeader config buffer)
    (counter : Counters p.width) : ((p.protector config).protect counter buffer inst).isSome ∧
      ((p.checker config).check counter buffer inst).isSome := by
  rw [Protector.protect, Profile.protector_admits, Checker.check]
  split_ifs with hadmits
  · obtain ⟨buffer', hwrite, -⟩ := Profile.write_eq (getCounter counter inst) inst (h hadmits)
    obtain ⟨r, hreceived, -⟩ := @Profile.received_eq p config inst buffer (h hadmits)
    rw [hwrite, hreceived]
    exact ⟨rfl, rfl⟩
  · exact ⟨rfl, rfl⟩

/-! ### The custom profile stays inside -/

theorem ProfileCustom.isSome_protect_check (config : ProfileCustom.Config) (buffer : List UInt8) :
    (protect config buffer).isSome ∧ (check config buffer).isSome := by
  rw [protect, check]
  split_ifs with hvalid
  · have hfits : config.crcOffset.toNat + 4 ≤ buffer.length := of_decide_eq_true hvalid
    rw [computeCrc, bufferView_eq hfits le_rfl, readUintBe_eq hfits]
    refine ⟨?_, rfl⟩
    rw [Option.map_some, Option.bind_eq_bind, Option.bind_some, writeUintBe, if_pos hfits]
    rfl
  · exact ⟨rfl, rfl⟩

/-! ### All profiles -/

/-- **The accesses are inside the buffer** iff the test of the profile covers them. -/
theorem accesses_inside_iff (custom : CustomParameters) (name : ProfileName) (inst : UInt16)
    (buffer : List UInt8) : (makeConfigured custom name).AccessesInside inst buffer ↔
      (makeConfigured custom name).Guarded inst buffer := by
  cases makeConfigured custom name with
  | p01 config =>
      constructor
      · rintro ⟨hprotect, hcheck⟩ hvalid
        exact Profile01.holdsFields_of_isSome hvalid (hprotect 0) hcheck
      · intro hguarded
        by_cases hvalid : Profile01.isBufferLengthValid config buffer
        · exact ⟨Profile01.isSome_protect hvalid (hguarded hvalid),
            Profile01.isSome_check hvalid (hguarded hvalid).1⟩
        · refine ⟨fun counter => ?_, ?_⟩
          · rw [Profile01.protect, if_neg hvalid]
            rfl
          · rw [Profile01.check, if_neg hvalid]
            rfl
  | counted p config =>
      constructor
      · rintro ⟨-, hcheck⟩ hadmits
        have hreceived := hcheck ∅
        rw [Checker.check, if_pos hadmits, Option.isSome_map] at hreceived
        exact Profile.holdsHeader_of_received hreceived
      · intro hguarded
        exact ⟨fun counter => (Profile.isSome_protect_check hguarded counter).1,
          fun counter => (Profile.isSome_protect_check hguarded counter).2⟩
  | custom config => exact iff_of_true (ProfileCustom.isSome_protect_check config buffer) trivial

/-- **Without parameters** profile 04 reads the header of an empty buffer, and profile 01 writes the
counter behind a buffer of one byte. -/
theorem short_buffers_accessed :
    (Profile.p04.checker (makeE2eProfileConfig (fun _ _ => none) .p04)).check ∅ [] 1 = none ∧
      ¬ (makeConfigured (fun _ _ => none) (.counted .p04)).AccessesInside 1 [] ∧
      ¬ (makeConfigured (fun _ _ => none) .p01).AccessesInside 1 [0] :=
  ⟨rfl, fun h => Bool.false_ne_true (h.2 ∅), fun h => Bool.false_ne_true (h.1 0)⟩

end SomeipTunnel.E2e
