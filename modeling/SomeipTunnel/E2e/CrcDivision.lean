import SomeipTunnel.E2e.Crc
import SomeipTunnel.Lib.CrcDivision

/-!
# The check values as polynomial remainders

The comments of `e2e_crc` name a polynomial, a reflection and a final value for each profile.
`crc_documented`: the functions that look up the tables compute the bitwise divisions with these
parameters, and those with a start value go on from the value of an earlier part. That a table is the
list of the remainders of all bytes is evaluated once for each of the five.

Source: vsomeip/implementation/e2e_protection/src/crc/crc.cpp
-/

namespace SomeipTunnel.E2e

open Crc

/-! ### The two other functions -/

/-- `lookup_table_profile_01_`. -/
def lookupTableProfile01 : List (BitVec 8) :=
  [0x00, 0x1D, 0x3A, 0x27, 0x74, 0x69, 0x4E, 0x53, 0xE8, 0xF5, 0xD2, 0xCF, 0x9C, 0x81, 0xA6, 0xBB,
    0xCD, 0xD0, 0xF7, 0xEA, 0xB9, 0xA4, 0x83, 0x9E, 0x25, 0x38, 0x1F, 0x02, 0x51, 0x4C, 0x6B, 0x76,
    0x87, 0x9A, 0xBD, 0xA0, 0xF3, 0xEE, 0xC9, 0xD4, 0x6F, 0x72, 0x55, 0x48, 0x1B, 0x06, 0x21, 0x3C,
    0x4A, 0x57, 0x70, 0x6D, 0x3E, 0x23, 0x04, 0x19, 0xA2, 0xBF, 0x98, 0x85, 0xD6, 0xCB, 0xEC, 0xF1,
    0x13, 0x0E, 0x29, 0x34, 0x67, 0x7A, 0x5D, 0x40, 0xFB, 0xE6, 0xC1, 0xDC, 0x8F, 0x92, 0xB5, 0xA8,
    0xDE, 0xC3, 0xE4, 0xF9, 0xAA, 0xB7, 0x90, 0x8D, 0x36, 0x2B, 0x0C, 0x11, 0x42, 0x5F, 0x78, 0x65,
    0x94, 0x89, 0xAE, 0xB3, 0xE0, 0xFD, 0xDA, 0xC7, 0x7C, 0x61, 0x46, 0x5B, 0x08, 0x15, 0x32, 0x2F,
    0x59, 0x44, 0x63, 0x7E, 0x2D, 0x30, 0x17, 0x0A, 0xB1, 0xAC, 0x8B, 0x96, 0xC5, 0xD8, 0xFF, 0xE2,
    0x26, 0x3B, 0x1C, 0x01, 0x52, 0x4F, 0x68, 0x75, 0xCE, 0xD3, 0xF4, 0xE9, 0xBA, 0xA7, 0x80, 0x9D,
    0xEB, 0xF6, 0xD1, 0xCC, 0x9F, 0x82, 0xA5, 0xB8, 0x03, 0x1E, 0x39, 0x24, 0x77, 0x6A, 0x4D, 0x50,
    0xA1, 0xBC, 0x9B, 0x86, 0xD5, 0xC8, 0xEF, 0xF2, 0x49, 0x54, 0x73, 0x6E, 0x3D, 0x20, 0x07, 0x1A,
    0x6C, 0x71, 0x56, 0x4B, 0x18, 0x05, 0x22, 0x3F, 0x84, 0x99, 0xBE, 0xA3, 0xF0, 0xED, 0xCA, 0xD7,
    0x35, 0x28, 0x0F, 0x12, 0x41, 0x5C, 0x7B, 0x66, 0xDD, 0xC0, 0xE7, 0xFA, 0xA9, 0xB4, 0x93, 0x8E,
    0xF8, 0xE5, 0xC2, 0xDF, 0x8C, 0x91, 0xB6, 0xAB, 0x10, 0x0D, 0x2A, 0x37, 0x64, 0x79, 0x5E, 0x43,
    0xB2, 0xAF, 0x88, 0x95, 0xC6, 0xDB, 0xFC, 0xE1, 0x5A, 0x47, 0x60, 0x7D, 0x2E, 0x33, 0x14, 0x09,
    0x7F, 0x62, 0x45, 0x58, 0x0B, 0x16, 0x31, 0x2C, 0x97, 0x8A, 0xAD, 0xB0, 0xE3, 0xFE, 0xD9, 0xC4]

/-- `lookup_table_profile_custom_`. -/
def lookupTableProfileCustom : List (BitVec 32) :=
  [0x00000000, 0x77073096, 0xEE0E612C, 0x990951BA, 0x076DC419, 0x706AF48F, 0xE963A535, 0x9E6495A3,
    0x0EDB8832, 0x79DCB8A4, 0xE0D5E91E, 0x97D2D988, 0x09B64C2B, 0x7EB17CBD, 0xE7B82D07, 0x90BF1D91,
    0x1DB71064, 0x6AB020F2, 0xF3B97148, 0x84BE41DE, 0x1ADAD47D, 0x6DDDE4EB, 0xF4D4B551, 0x83D385C7,
    0x136C9856, 0x646BA8C0, 0xFD62F97A, 0x8A65C9EC, 0x14015C4F, 0x63066CD9, 0xFA0F3D63, 0x8D080DF5,
    0x3B6E20C8, 0x4C69105E, 0xD56041E4, 0xA2677172, 0x3C03E4D1, 0x4B04D447, 0xD20D85FD, 0xA50AB56B,
    0x35B5A8FA, 0x42B2986C, 0xDBBBC9D6, 0xACBCF940, 0x32D86CE3, 0x45DF5C75, 0xDCD60DCF, 0xABD13D59,
    0x26D930AC, 0x51DE003A, 0xC8D75180, 0xBFD06116, 0x21B4F4B5, 0x56B3C423, 0xCFBA9599, 0xB8BDA50F,
    0x2802B89E, 0x5F058808, 0xC60CD9B2, 0xB10BE924, 0x2F6F7C87, 0x58684C11, 0xC1611DAB, 0xB6662D3D,
    0x76DC4190, 0x01DB7106, 0x98D220BC, 0xEFD5102A, 0x71B18589, 0x06B6B51F, 0x9FBFE4A5, 0xE8B8D433,
    0x7807C9A2, 0x0F00F934, 0x9609A88E, 0xE10E9818, 0x7F6A0DBB, 0x086D3D2D, 0x91646C97, 0xE6635C01,
    0x6B6B51F4, 0x1C6C6162, 0x856530D8, 0xF262004E, 0x6C0695ED, 0x1B01A57B, 0x8208F4C1, 0xF50FC457,
    0x65B0D9C6, 0x12B7E950, 0x8BBEB8EA, 0xFCB9887C, 0x62DD1DDF, 0x15DA2D49, 0x8CD37CF3, 0xFBD44C65,
    0x4DB26158, 0x3AB551CE, 0xA3BC0074, 0xD4BB30E2, 0x4ADFA541, 0x3DD895D7, 0xA4D1C46D, 0xD3D6F4FB,
    0x4369E96A, 0x346ED9FC, 0xAD678846, 0xDA60B8D0, 0x44042D73, 0x33031DE5, 0xAA0A4C5F, 0xDD0D7CC9,
    0x5005713C, 0x270241AA, 0xBE0B1010, 0xC90C2086, 0x5768B525, 0x206F85B3, 0xB966D409, 0xCE61E49F,
    0x5EDEF90E, 0x29D9C998, 0xB0D09822, 0xC7D7A8B4, 0x59B33D17, 0x2EB40D81, 0xB7BD5C3B, 0xC0BA6CAD,
    0xEDB88320, 0x9ABFB3B6, 0x03B6E20C, 0x74B1D29A, 0xEAD54739, 0x9DD277AF, 0x04DB2615, 0x73DC1683,
    0xE3630B12, 0x94643B84, 0x0D6D6A3E, 0x7A6A5AA8, 0xE40ECF0B, 0x9309FF9D, 0x0A00AE27, 0x7D079EB1,
    0xF00F9344, 0x8708A3D2, 0x1E01F268, 0x6906C2FE, 0xF762575D, 0x806567CB, 0x196C3671, 0x6E6B06E7,
    0xFED41B76, 0x89D32BE0, 0x10DA7A5A, 0x67DD4ACC, 0xF9B9DF6F, 0x8EBEEFF9, 0x17B7BE43, 0x60B08ED5,
    0xD6D6A3E8, 0xA1D1937E, 0x38D8C2C4, 0x4FDFF252, 0xD1BB67F1, 0xA6BC5767, 0x3FB506DD, 0x48B2364B,
    0xD80D2BDA, 0xAF0A1B4C, 0x36034AF6, 0x41047A60, 0xDF60EFC3, 0xA867DF55, 0x316E8EEF, 0x4669BE79,
    0xCB61B38C, 0xBC66831A, 0x256FD2A0, 0x5268E236, 0xCC0C7795, 0xBB0B4703, 0x220216B9, 0x5505262F,
    0xC5BA3BBE, 0xB2BD0B28, 0x2BB45A92, 0x5CB36A04, 0xC2D7FFA7, 0xB5D0CF31, 0x2CD99E8B, 0x5BDEAE1D,
    0x9B64C2B0, 0xEC63F226, 0x756AA39C, 0x026D930A, 0x9C0906A9, 0xEB0E363F, 0x72076785, 0x05005713,
    0x95BF4A82, 0xE2B87A14, 0x7BB12BAE, 0x0CB61B38, 0x92D28E9B, 0xE5D5BE0D, 0x7CDCEFB7, 0x0BDBDF21,
    0x86D3D2D4, 0xF1D4E242, 0x68DDB3F8, 0x1FDA836E, 0x81BE16CD, 0xF6B9265B, 0x6FB077E1, 0x18B74777,
    0x88085AE6, 0xFF0F6A70, 0x66063BCA, 0x11010B5C, 0x8F659EFF, 0xF862AE69, 0x616BFFD3, 0x166CCF45,
    0xA00AE278, 0xD70DD2EE, 0x4E048354, 0x3903B3C2, 0xA7672661, 0xD06016F7, 0x4969474D, 0x3E6E77DB,
    0xAED16A4A, 0xD9D65ADC, 0x40DF0B66, 0x37D83BF0, 0xA9BCAE53, 0xDEBB9EC5, 0x47B2CF7F, 0x30B5FFE9,
    0xBDBDF21C, 0xCABAC28A, 0x53B39330, 0x24B4A3A6, 0xBAD03605, 0xCDD70693, 0x54DE5729, 0x23D967BF,
    0xB3667A2E, 0xC4614AB8, 0x5D681B02, 0x2A6F2B94, 0xB40BBE37, 0xC30C8EA1, 0x5A05DF1B, 0x2D02EF8D]

/-- The shifted value is not added: nothing is left of it in eight bits.
Source: `e2e_crc::calculate_profile_01`. -/
def calculateProfile01 (bufferView : List UInt8) (startValue : BitVec 8) : BitVec 8 :=
  bufferView.foldl (fun crc byte => lookup lookupTableProfile01 (byte.toBitVec ^^^ crc))
    (startValue ^^^ 0xFF) ^^^ 0xFF

/-- Source: `e2e_crc::calculate_profile_custom`. -/
def calculateProfileCustom (bufferView : List UInt8) : BitVec 32 :=
  bufferView.foldl (reflected (lookup lookupTableProfileCustom)) 0xFFFFFFFF ^^^ 0xFFFFFFFF

/-! ### The documented parameters -/

/-- Source: `crc.cpp`, the comment of `calculate_profile_01` -/
def division01 : Division 8 := ⟨0x1D, false, 0xFF⟩

/-- Source: `crc.cpp`, the comment of `calculate_profile_04` -/
def division04 : Division 32 := ⟨0xF4ACFB13, true, 0xFFFFFFFF⟩

/-- Source: `crc.cpp`, the comments of `calculate_profile_05` -/
def division05 : Division 16 := ⟨0x1021, false, 0⟩

/-- Source: `crc.cpp`, the comment of `calculate_profile_custom` -/
def divisionCustom : Division 32 := ⟨0x04C11DB7, true, 0xFFFFFFFF⟩

/-- Source: `crc.cpp`, the comment of `calculate_profile_07` -/
def division07 : Division 64 := ⟨0x42F0E1EBA9EA3693, true, 0xFFFFFFFFFFFFFFFF⟩

theorem lookupTableProfile01_eq : lookupTableProfile01 = division01.remainders := by
  decide +kernel

theorem lookupTableProfile04_eq : lookupTableProfile04 = division04.remainders := by
  decide +kernel

theorem lookupTableProfile05_eq : lookupTableProfile05 = division05.remainders := by
  decide +kernel

theorem lookupTableProfileCustom_eq : lookupTableProfileCustom = divisionCustom.remainders := by
  decide +kernel

theorem lookupTableProfile07_eq : lookupTableProfile07 = division07.remainders := by
  decide +kernel

/-! ### The functions -/

variable (bufferView : List UInt8)

theorem calculateProfile01_eq (startValue : BitVec 8) :
    calculateProfile01 bufferView startValue = division01.check bufferView startValue := by
  have hstep : (fun (crc : BitVec 8) (byte : UInt8) =>
      lookup lookupTableProfile01 (byte.toBitVec ^^^ crc)) =
      forward (lookup lookupTableProfile01) := by
    funext crc byte
    have hshift : crc <<< 8 = 0#8 := BitVec.shiftLeft_eq_zero le_rfl
    rw [forward, hshift, BitVec.xor_zero, Nat.sub_self, BitVec.ushiftRight_zero,
      BitVec.setWidth_eq, BitVec.xor_comm]
  rw [calculateProfile01, hstep]
  exact Division.forward_eq_check le_rfl rfl lookupTableProfile01_eq bufferView startValue

theorem calculateProfile04_eq (startValue : BitVec 32) :
    calculateProfile04 bufferView startValue = division04.check bufferView startValue :=
  Division.reflected_eq_check rfl lookupTableProfile04_eq bufferView startValue

theorem calculateProfile05_eq (startValue : BitVec 16) :
    calculateProfile05 bufferView startValue = division05.check bufferView startValue := by
  have h := Division.forward_eq_check (by decide) rfl lookupTableProfile05_eq bufferView startValue
  have hxor : division05.xorOut = 0#16 := rfl
  rw [← h, calculateProfile05, hxor, BitVec.xor_zero, BitVec.xor_zero]

theorem calculateProfileCustom_eq :
    calculateProfileCustom bufferView = divisionCustom.check bufferView 0 := by
  have h := Division.reflected_eq_check rfl lookupTableProfileCustom_eq bufferView 0
  rw [← h, BitVec.ofNat_eq_ofNat, BitVec.zero_xor]
  rfl

theorem calculateProfile07_eq (startValue : BitVec 64) :
    calculateProfile07 bufferView startValue = division07.check bufferView startValue :=
  Division.reflected_eq_check rfl lookupTableProfile07_eq bufferView startValue

/-- **The functions compute the documented remainders**, and the four with a start value go on from
the value of the first part. -/
theorem crc_documented (bufferView rest : List UInt8) (start01 : BitVec 8) (start04 : BitVec 32)
    (start05 : BitVec 16) (start07 : BitVec 64) :
    (calculateProfile01 bufferView start01 = division01.check bufferView start01 ∧
      calculateProfile04 bufferView start04 = division04.check bufferView start04 ∧
      calculateProfile05 bufferView start05 = division05.check bufferView start05 ∧
      calculateProfileCustom bufferView = divisionCustom.check bufferView 0 ∧
      calculateProfile07 bufferView start07 = division07.check bufferView start07) ∧
    calculateProfile01 (bufferView ++ rest) start01 =
      calculateProfile01 rest (calculateProfile01 bufferView start01) ∧
    calculateProfile04 (bufferView ++ rest) start04 =
      calculateProfile04 rest (calculateProfile04 bufferView start04) ∧
    calculateProfile05 (bufferView ++ rest) start05 =
      calculateProfile05 rest (calculateProfile05 bufferView start05) ∧
    calculateProfile07 (bufferView ++ rest) start07 =
      calculateProfile07 rest (calculateProfile07 bufferView start07) := by
  simp only [calculateProfile01_eq, calculateProfile04_eq, calculateProfile05_eq,
    calculateProfileCustom_eq, calculateProfile07_eq, Division.check_append, and_self]

end SomeipTunnel.E2e
