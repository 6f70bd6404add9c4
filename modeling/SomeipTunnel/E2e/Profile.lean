import Mathlib.Data.List.AList
import SomeipTunnel.Lib.Codec
import SomeipTunnel.E2e.Crc

/-!
# The E2E profiles 04, 05 and 07

A protector writes a header into a buffer and a checker reads it: a counter and a check value, and
for the profiles 04 and 07 also the length of the buffer and a data id. The three checkers, and the
three protectors, have one shape (`Checker.check`, `Protector.protect`) and differ in what they admit
and in the layout and the widths of the header (`Profile04`, `Profile05`, `Profile07`).

`none` is an access outside the buffer; the code has no check against it. Counters, data ids and
check values are bit vectors of the width that the code gives them, sizes are numbers.

Source: vsomeip/implementation/e2e_protection/src/e2e/profile/profile0x/checker.cpp, protector.cpp
and profile_0x.cpp (x = 4, 5, 7), e2e_provider_impl.cpp, utility/include/bithelper.hpp
-/

namespace SomeipTunnel.E2e

open Buffer Codec

/-! ### Access to the buffer -/

/-- Read the `w` bit value at an index, the highest byte first. Source: `bithelper::read_uint16_be`,
`read_uint32_be`, `read_uint64_be`, and `read_8` of the checkers. -/
def readUintBe (w : ℕ) (buffer : List UInt8) (index : ℕ) : Option (BitVec w) :=
  if index + w / 8 ≤ buffer.length then some (BitVec.ofNat w (ofBytes (slice buffer index (w / 8))))
  else none

/-- Write a value at an index, the highest byte first. Source: `bithelper::write_uint16_be`,
`write_uint32_be`, `write_uint64_be`, and `write_counter` of profile 05. -/
def writeUintBe {w : ℕ} (value : BitVec w) (buffer : List UInt8) (index : ℕ) :
    Option (List UInt8) :=
  if index + w / 8 ≤ buffer.length then some (overwrite buffer index (toBytes (w / 8) value.toNat))
  else none

/-- The bytes from `start` to `stop`. Source: `buffer_view::buffer_view`. -/
def bufferView (buffer : List UInt8) (start stop : ℕ) : Option (List UInt8) :=
  if start ≤ stop ∧ stop ≤ buffer.length then some (slice buffer start (stop - start)) else none

/-! ### What the three checkers and protectors share -/

/-- Source: `generic_check_status`. -/
inductive CheckStatus
  | ok
  | wrongCrc
  | error
deriving DecidableEq, Repr

/-- A counter for each instance. Source: `std::map<instance_t, uintN_t> counter_`. -/
abbrev Counters (w : ℕ) := AList fun _ : UInt16 => BitVec w

/-- What `check` reads from a buffer: whether the check value is the computed one, whether the data
id and the length are the expected ones, and the counter. -/
structure Received (w : ℕ) where
  crcMatches : Bool
  identified : Bool
  counter : BitVec w
deriving DecidableEq, Repr

/-- Source: `verify_counter`. The counter of an instance is stored with its first buffer. -/
def verifyCounter {w : ℕ} (maxDeltaCounter : ℕ) (counter : Counters w) (inst : UInt16)
    (receivedCounter : BitVec w) : Bool × Counters w :=
  match counter.lookup inst with
  | some itsCounter =>
      let delta :=
        if itsCounter < receivedCounter then receivedCounter - itsCounter
        else BitVec.allOnes w - itsCounter + receivedCounter
      (decide (delta.toNat ≤ maxDeltaCounter), counter)
  | none => (decide (0 ≤ maxDeltaCounter), counter.insert inst receivedCounter)

/-- A checker: the buffers it looks at, what it reads from them, and the largest step of the
counter. -/
structure Checker (w : ℕ) where
  admits : UInt16 → List UInt8 → Bool
  received : UInt16 → List UInt8 → Option (Received w)
  maxDeltaCounter : ℕ

/-- The verdict about what was read. -/
def Checker.judge {w : ℕ} (checker : Checker w) (counter : Counters w) (inst : UInt16)
    (received : Received w) : CheckStatus × Counters w :=
  if ¬ received.crcMatches then (.wrongCrc, counter)
  else if received.identified then
    let verified := verifyCounter checker.maxDeltaCounter counter inst received.counter
    (if verified.1 then .ok else .error, verified.2)
  else (.error, counter)

/-- Source: `profile_04_checker::check`, `profile_05_checker::check`, `profile_07_checker::check`. -/
def Checker.check {w : ℕ} (checker : Checker w) (counter : Counters w) (buffer : List UInt8)
    (inst : UInt16) : Option (CheckStatus × Counters w) :=
  if checker.admits inst buffer then
    (checker.received inst buffer).map (checker.judge counter inst)
  else some (.error, counter)

/-- Source: `protector::get_counter`. -/
def getCounter {w : ℕ} (counter : Counters w) (inst : UInt16) : BitVec w :=
  (counter.lookup inst).getD 0

/-- Source: `protector::increment_counter`. -/
def incrementCounter {w : ℕ} (counter : Counters w) (inst : UInt16) : Counters w :=
  match counter.lookup inst with
  | some itsCounter => counter.insert inst (itsCounter + 1)
  | none => counter.insert inst 1

/-- A protector: the buffers it protects and how it writes the header with a counter. -/
structure Protector (w : ℕ) where
  admits : UInt16 → List UInt8 → Bool
  write : BitVec w → UInt16 → List UInt8 → Option (List UInt8)

/-- Source: `protector::protect`. -/
def Protector.protect {w : ℕ} (protector : Protector w) (counter : Counters w) (buffer : List UInt8)
    (inst : UInt16) : Option (List UInt8 × Counters w) :=
  if protector.admits inst buffer then do
    let buffer ← protector.write (getCounter counter inst) inst buffer
    return (buffer, incrementCounter counter inst)
  else some (buffer, counter)

/-! ### Profile 04 -/

namespace Profile04

/-- `VSOMEIP_E2E_PROFILE04_MAX_INSTANCE`. -/
def maxInstance : ℕ := 0x00ff

/-- Source: `profile04::profile_config`; `offset` is in bytes. -/
structure Config where
  dataId : BitVec 32
  offset : ℕ
  minDataLength : ℕ
  maxDataLength : ℕ
  maxDeltaCounter : BitVec 16

/-- Source: `profile_04_checker::verify_input`, `protector::verify_inputs`. -/
def verifyInput (config : Config) (buffer : List UInt8) : Bool :=
  decide (config.minDataLength ≤ buffer.length ∧ buffer.length ≤ config.maxDataLength)

/-- Source: `profile_04::compute_crc`. -/
def computeCrc (config : Config) (buffer : List UInt8) : Option (BitVec 32) := do
  let before ← bufferView buffer 0 (config.offset + 8)
  let computedCrc := calculateProfile04 before 0
  if config.offset + 12 < buffer.length then
    let after ← bufferView buffer (config.offset + 12) buffer.length
    return calculateProfile04 after computedCrc
  else return computedCrc

/-- The data id in the header: the instance is in its highest byte. -/
def dataIdOf (config : Config) (inst : UInt16) : BitVec 32 :=
  (inst.toBitVec.setWidth 32 <<< 24) ||| config.dataId

/-- Source: `profile_04_checker::check`. -/
def received (config : Config) (inst : UInt16) (buffer : List UInt8) : Option (Received 16) := do
  let receivedLength ← readUintBe 16 buffer (config.offset + 0)
  let receivedCounter ← readUintBe 16 buffer (config.offset + 2)
  let receivedDataId ← readUintBe 32 buffer (config.offset + 4)
  let receivedCrc ← readUintBe 32 buffer (config.offset + 8)
  let crc ← computeCrc config buffer
  return {
    crcMatches := decide (receivedCrc = crc)
    identified := decide (receivedDataId = dataIdOf config inst ∧
      receivedLength.toNat = buffer.length)
    counter := receivedCounter }

/-- Source: `profile04::protector::protect`. -/
def write (config : Config) (counter : BitVec 16) (inst : UInt16) (buffer : List UInt8) :
    Option (List UInt8) := do
  let buffer ← writeUintBe (BitVec.ofNat 16 buffer.length) buffer config.offset
  let buffer ← writeUintBe counter buffer (config.offset + 2)
  let buffer ← writeUintBe (dataIdOf config inst) buffer (config.offset + 4)
  let crc ← computeCrc config buffer
  writeUintBe crc buffer (config.offset + 8)

/-- The instances and lengths that are checked and protected. -/
def admits (config : Config) (inst : UInt16) (buffer : List UInt8) : Bool :=
  decide (inst.toNat ≤ maxInstance) && verifyInput config buffer

/-- Source: `profile_04_checker`. -/
def checker (config : Config) : Checker 16 :=
  ⟨admits config, received config, config.maxDeltaCounter.toNat⟩

/-- Source: `profile04::protector`. -/
def protector (config : Config) : Protector 16 := ⟨admits config, write config⟩

end Profile04

/-! ### Profile 05 -/

namespace Profile05

/-- `VSOMEIP_E2E_PROFILE05_MAX_INSTANCE`. -/
def maxInstance : ℕ := 0x00ff

/-- Source: `profile05::profile_config`; `dataLength` is in bits, `offset` in bytes. -/
structure Config where
  dataId : BitVec 32
  dataLength : BitVec 16
  offset : ℕ
  maxDeltaCounter : BitVec 16

/-- Source: `profile_05::is_buffer_length_valid`. -/
def isBufferLengthValid (config : Config) (buffer : List UInt8) : Bool :=
  decide (config.dataLength.toNat / 8 + 1 ≤ buffer.length)

/-- The data id as it enters the check value. -/
def dataIdView (config : Config) : List UInt8 :=
  [UInt8.ofBitVec (config.dataId.setWidth 8), UInt8.ofBitVec ((config.dataId >>> 8).setWidth 8)]

/-- Source: `profile_05::compute_crc`. -/
def computeCrc (config : Config) (buffer : List UInt8) : Option (BitVec 16) := do
  let before ← bufferView buffer 0 config.offset
  let computedCrc := calculateProfile05 before 0xFFFF
  if config.offset + 2 < buffer.length then
    let after ← bufferView buffer (config.offset + 2) buffer.length
    return calculateProfile05 (dataIdView config) (calculateProfile05 after computedCrc)
  else return calculateProfile05 (dataIdView config) computedCrc

/-- Source: `profile_05_checker::check`. The header has no length and no data id. -/
def received (config : Config) (buffer : List UInt8) : Option (Received 8) := do
  let receivedCounter ← readUintBe 8 buffer (config.offset + 2)
  let receivedCrc ← readUintBe 16 buffer (config.offset + 0)
  let crc ← computeCrc config buffer
  return ⟨decide (receivedCrc = crc), true, receivedCounter⟩

/-- Source: `profile05::protector::protect`. -/
def write (config : Config) (counter : BitVec 8) (buffer : List UInt8) : Option (List UInt8) := do
  let buffer ← writeUintBe counter buffer (config.offset + 2)
  let crc ← computeCrc config buffer
  writeUintBe crc buffer config.offset

/-- The instances and lengths that are checked and protected. -/
def admits (config : Config) (inst : UInt16) (buffer : List UInt8) : Bool :=
  decide (inst.toNat ≤ maxInstance) && isBufferLengthValid config buffer

/-- Source: `profile_05_checker`. -/
def checker (config : Config) : Checker 8 :=
  ⟨admits config, fun _ => received config, config.maxDeltaCounter.toNat⟩

/-- Source: `profile05::protector`. -/
def protector (config : Config) : Protector 8 :=
  ⟨admits config, fun counter _ => write config counter⟩

end Profile05

/-! ### Profile 07 -/

namespace Profile07

/-- `PROFILE_07_SIZE_OFFSET`. -/
def sizeOffset : ℕ := 8

/-- `PROFILE_07_COUNTER_OFFSET`. -/
def counterOffset : ℕ := 12

/-- `PROFILE_07_DATAID_OFFSET`. -/
def dataIdOffset : ℕ := 16

/-- `PROFILE_07_CRC_OFFSET`. -/
def crcOffset : ℕ := 0

/-- Source: `profile07::profile_config`; `offset` is in bytes. -/
structure Config where
  dataId : BitVec 32
  offset : ℕ
  minDataLength : ℕ
  maxDataLength : ℕ
  maxDeltaCounter : BitVec 32

/-- Source: `profile_07_checker::verify_input`, `protector::verify_inputs`. -/
def verifyInput (config : Config) (buffer : List UInt8) : Bool :=
  decide (config.minDataLength ≤ buffer.length ∧ buffer.length ≤ config.maxDataLength)

/-- Source: `profile_07::compute_crc`. -/
def computeCrc (config : Config) (buffer : List UInt8) : Option (BitVec 64) := do
  let before ← bufferView buffer 0 config.offset
  let computedCrc := calculateProfile07 before 0
  if config.offset + 8 < buffer.length then
    let after ← bufferView buffer (config.offset + 8) buffer.length
    return calculateProfile07 after computedCrc
  else return computedCrc

/-- Source: `profile_07_checker::check`. -/
def received (config : Config) (buffer : List UInt8) : Option (Received 32) := do
  let receivedLength ← readUintBe 32 buffer (config.offset + sizeOffset)
  let receivedCounter ← readUintBe 32 buffer (config.offset + counterOffset)
  let receivedDataId ← readUintBe 32 buffer (config.offset + dataIdOffset)
  let receivedCrc ← readUintBe 64 buffer (config.offset + crcOffset)
  let crc ← computeCrc config buffer
  return {
    crcMatches := decide (receivedCrc = crc)
    identified := decide (receivedDataId = config.dataId ∧ receivedLength.toNat = buffer.length)
    counter := receivedCounter }

/-- Source: `profile07::protector::protect`. The size is cut to 16 bits before it is written as a
32 bit value. -/
def write (config : Config) (counter : BitVec 32) (buffer : List UInt8) : Option (List UInt8) := do
  let size : BitVec 16 := BitVec.ofNat 16 buffer.length
  let buffer ← writeUintBe (size.setWidth 32) buffer (config.offset + sizeOffset)
  let buffer ← writeUintBe counter buffer (config.offset + counterOffset)
  let buffer ← writeUintBe config.dataId buffer (config.offset + dataIdOffset)
  let crc ← computeCrc config buffer
  writeUintBe crc buffer (config.offset + crcOffset)

/-- The lengths that are checked and protected; every instance is. -/
def admits (config : Config) (_inst : UInt16) (buffer : List UInt8) : Bool :=
  verifyInput config buffer

/-- Source: `profile_07_checker`. -/
def checker (config : Config) : Checker 32 :=
  ⟨admits config, fun _ => received config, config.maxDeltaCounter.toNat⟩

/-- Source: `profile07::protector`. -/
def protector (config : Config) : Protector 32 :=
  ⟨admits config, fun counter _ => write config counter⟩

end Profile07

/-! ### The configured profile -/

/-- The profiles of `e2e_provider_impl::add_configuration` with a checker and a protector here. -/
inductive Profile
  | p04
  | p05
  | p07
deriving DecidableEq, Repr

namespace Profile

/-- The bits of the counter. -/
abbrev width : Profile → ℕ
  | p04 => 16
  | p05 => 8
  | p07 => 32

abbrev Config : Profile → Type
  | p04 => Profile04.Config
  | p05 => Profile05.Config
  | p07 => Profile07.Config

def checker : (p : Profile) → p.Config → Checker p.width
  | p04 => Profile04.checker
  | p05 => Profile05.checker
  | p07 => Profile07.checker

def protector : (p : Profile) → p.Config → Protector p.width
  | p04 => Profile04.protector
  | p05 => Profile05.protector
  | p07 => Profile07.protector

/-- The byte at which the header starts. -/
def offset : (p : Profile) → p.Config → ℕ
  | p04 => Profile04.Config.offset
  | p05 => Profile05.Config.offset
  | p07 => Profile07.Config.offset

/-- The bytes of the header: its fields stand one behind the other. -/
def headerSize : Profile → ℕ
  | p04 => 12
  | p05 => 3
  | p07 => 20

/-- The buffer holds the header at the configured offset. -/
def HoldsHeader (p : Profile) (config : p.Config) (buffer : List UInt8) : Prop :=
  p.offset config + p.headerSize ≤ buffer.length

instance (p : Profile) (config : p.Config) (buffer : List UInt8) :
    Decidable (p.HoldsHeader config buffer) := inferInstanceAs (Decidable (_ ≤ _))

end Profile

/-- The names of the parameters that `make_e2e_profile_config` reads. -/
inductive Parameter
  | dataId
  | dataLength
  | crcOffset
  | minDataLength
  | maxDataLength
  | maxDeltaCounter
  | counterOffset
  | dataIdNibbleOffset
  | dataIdMode
deriving DecidableEq, Repr

/-- The configured parameters: what a stream gives for a `w` bit value, if the parameter is there.
Source: `cfg::e2e::custom_parameters`. -/
abbrev CustomParameters := Parameter → (w : ℕ) → Option (BitVec w)

/-- Source: `read_value_from_config`. -/
def readValueFromConfig {w : ℕ} (config : CustomParameters) (name : Parameter)
    (defaultValue : BitVec w) : BitVec w := (config name w).getD defaultValue

/-- A `size_t` parameter. -/
def readSizeFromConfig (config : CustomParameters) (name : Parameter) (defaultValue : ℕ) : ℕ :=
  (readValueFromConfig config name (BitVec.ofNat 64 defaultValue)).toNat

/-- Source: `e2e_provider_impl::make_e2e_profile_config`. The offset is given in bits. -/
def makeE2eProfileConfig (config : CustomParameters) : (p : Profile) → p.Config
  | .p04 =>
      { dataId := readValueFromConfig config .dataId 0
        offset := readSizeFromConfig config .crcOffset 0 / 8
        minDataLength := readSizeFromConfig config .minDataLength 0
        maxDataLength := readSizeFromConfig config .maxDataLength 0xffff
        maxDeltaCounter := readValueFromConfig config .maxDeltaCounter 0xffff : Profile04.Config }
  | .p05 =>
      { dataId := readValueFromConfig config .dataId 0
        dataLength := readValueFromConfig config .dataLength 0
        offset := readSizeFromConfig config .crcOffset 0 / 8
        maxDeltaCounter := readValueFromConfig config .maxDeltaCounter 0xffff : Profile05.Config }
  | .p07 =>
      { dataId := readValueFromConfig config .dataId 0
        offset := readSizeFromConfig config .crcOffset 0 / 8
        minDataLength := readSizeFromConfig config .minDataLength 0
        maxDataLength := readSizeFromConfig config .maxDataLength 0xffffffff
        maxDeltaCounter := readValueFromConfig config .maxDeltaCounter 0xffffffff :
          Profile07.Config }

end SomeipTunnel.E2e
