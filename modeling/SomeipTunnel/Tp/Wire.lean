import Mathlib
import SomeipTunnel.Lib.Buffer

/-!
# The SOME/IP and SOME/IP-TP header on the wire

Byte strings are `List UInt8`; a `uint16_t` or `uint32_t` read from them is a natural number, and
arithmetic on such numbers wraps explicitly (`u32`, `u32Sub`) where the source computes in
`uint32_t`. Positions in the header (`vsomeip/defines.hpp`, `tp.hpp`): service 0, method 2, length
4, client 8, session 10, protocol version 12, interface version 13, message type 14, return code
15, and behind the 16 bytes of the full header the TP header 16 and the TP payload 20.

The bit operations of `tp.hpp` have arithmetic forms: `getOffset_eq` (the offset is the header
rounded down to a multiple of 16), `tpHeader_or` (the header a sender builds) and
`tpMessageId_eq` (the packed key is a number in mixed radix, hence injective).
-/

namespace SomeipTunnel.Tp

/-! ### 32-bit arithmetic -/

/-- A value stored in a `uint32_t`. -/
def u32 (n : ℕ) : ℕ := n % 2 ^ 32

/-- A `uint32_t` difference. -/
def u32Sub (a b : ℕ) : ℕ := (a + 2 ^ 32 - b) % 2 ^ 32

theorem u32_of_lt {n : ℕ} (h : n < 2 ^ 32) : u32 n = n := Nat.mod_eq_of_lt h

theorem u32Sub_of_le {a b : ℕ} (h : b ≤ a) (ha : a < 2 ^ 32) : u32Sub a b = a - b := by
  unfold u32Sub
  omega

/-! ### Reading and writing big-endian numbers -/

/-- The byte at a position of a datagram.
Source: `_data[i]`; every read of the modelled code is behind a check of the length -/
def byteAt (data : List UInt8) (pos : ℕ) : UInt8 := data.getD pos 0

/-- Source: `bithelper.hpp`, `read_uint16_be` -/
def readUint16Be (data : List UInt8) (pos : ℕ) : ℕ :=
  (byteAt data pos).toNat * 2 ^ 8 + (byteAt data (pos + 1)).toNat

/-- Source: `bithelper.hpp`, `read_uint32_be` -/
def readUint32Be (data : List UInt8) (pos : ℕ) : ℕ :=
  (byteAt data pos).toNat * 2 ^ 24 + (byteAt data (pos + 1)).toNat * 2 ^ 16 +
    (byteAt data (pos + 2)).toNat * 2 ^ 8 + (byteAt data (pos + 3)).toNat

/-- The four bytes of a `uint32_t` in network order.
Source: `htonl` followed by a store of the value -/
def uint32Bytes (v : ℕ) : List UInt8 :=
  [UInt8.ofNat (v / 2 ^ 24), UInt8.ofNat (v / 2 ^ 16), UInt8.ofNat (v / 2 ^ 8), UInt8.ofNat v]

@[simp] theorem length_uint32Bytes (v : ℕ) : (uint32Bytes v).length = 4 := rfl

variable {data : List UInt8} {pos : ℕ}

theorem byteAt_eq_of_getElem? {data' : List UInt8} {i j : ℕ} (h : data[i]? = data'[j]?) :
    byteAt data i = byteAt data' j := by
  simp only [byteAt, List.getD_eq_getElem?_getD, h]

theorem readUint16Be_lt (data : List UInt8) (pos : ℕ) : readUint16Be data pos < 2 ^ 16 := by
  have h₁ := (byteAt data pos).toNat_lt
  have h₂ := (byteAt data (pos + 1)).toNat_lt
  unfold readUint16Be
  omega

/-- Reading back the four bytes of a number. -/
theorem readUint32Be_of_bytes {v : ℕ} (hv : v < 2 ^ 32)
    (h : ∀ k < 4, data[pos + k]? = (uint32Bytes v)[k]?) : readUint32Be data pos = v := by
  have h₀ := byteAt_eq_of_getElem? (h 0 (by norm_num))
  have h₁ := byteAt_eq_of_getElem? (h 1 (by norm_num))
  have h₂ := byteAt_eq_of_getElem? (h 2 (by norm_num))
  have h₃ := byteAt_eq_of_getElem? (h 3 (by norm_num))
  simp only [add_zero] at h₀
  unfold readUint32Be
  rw [h₀, h₁, h₂, h₃]
  simp only [byteAt, uint32Bytes, List.getD_cons_zero, List.getD_cons_succ, UInt8.toNat_ofNat']
  omega

theorem getElem?_eq_some_byteAt (h : pos < data.length) : data[pos]? = some (byteAt data pos) := by
  rw [byteAt, List.getD_eq_getElem?_getD, List.getElem?_eq_getElem h, Option.getD_some]

/-- The bytes of a number that has been read are those at its place. -/
theorem getElem?_uint32Bytes_readUint32Be {k : ℕ} (h : pos + 4 ≤ data.length) (hk : k < 4) :
    (uint32Bytes (readUint32Be data pos))[k]? = data[pos + k]? := by
  have h₁ := (byteAt data pos).toNat_lt
  have h₂ := (byteAt data (pos + 1)).toNat_lt
  have h₃ := (byteAt data (pos + 2)).toNat_lt
  have h₄ := (byteAt data (pos + 3)).toNat_lt
  rw [getElem?_eq_some_byteAt (by omega : pos + k < data.length)]
  have hcases : k = 0 ∨ k = 1 ∨ k = 2 ∨ k = 3 := by omega
  rcases hcases with rfl | rfl | rfl | rfl
  all_goals
    simp only [uint32Bytes, readUint32Be, List.getElem?_cons_zero, List.getElem?_cons_succ,
      Option.some.injEq, Nat.add_zero]
    apply UInt8.toNat_inj.mp
    rw [UInt8.toNat_ofNat']
    omega

theorem readUint16Be_congr {data' : List UInt8} (h : ∀ k < 2, data[pos + k]? = data'[pos + k]?) :
    readUint16Be data pos = readUint16Be data' pos := by
  have h₀ : byteAt data pos = byteAt data' pos := byteAt_eq_of_getElem? (h 0 (by norm_num))
  unfold readUint16Be
  rw [h₀, byteAt_eq_of_getElem? (h 1 (by norm_num))]

/-! ### The TP header and the TP flag -/

/-- Source: `tp::get_offset` -/
def getOffset (tpHeader : ℕ) : ℕ := tpHeader &&& 0xfffffff0

/-- Source: `tp::more_segments` -/
def moreSegments (tpHeader : ℕ) : Bool := tpHeader &&& 0x1 != 0

/-- Source: `tp::tp_flag_is_set` -/
def tpFlagIsSet (msgType : UInt8) : Bool := msgType &&& 0x20 != 0

/-- Source: `tp::tp_flag_unset` -/
def tpFlagUnset (msgType : UInt8) : UInt8 := msgType &&& ~~~0x20

/-- The message type a sender of segments writes.
Source: `tp.cpp`, `tp_split_message` -/
def tpFlagSet (msgType : UInt8) : UInt8 := msgType ||| 0x20

theorem tpFlagIsSet_tpFlagSet (t : UInt8) : tpFlagIsSet (tpFlagSet t) = true := by
  revert t
  decide +kernel

theorem tpFlagUnset_tpFlagSet (t : UInt8) (h : tpFlagIsSet t = false) :
    tpFlagUnset (tpFlagSet t) = t := by
  revert t
  decide +kernel

theorem tpFlagUnset_of_not_set (t : UInt8) (h : tpFlagIsSet t = false) : tpFlagUnset t = t := by
  revert t
  decide +kernel

/-- The offset is the TP header without its four low bits. -/
theorem getOffset_eq {h : ℕ} (hh : h < 2 ^ 32) : getOffset h = h / 2 ^ 4 * 2 ^ 4 := by
  have hmask : (0xfffffff0 : ℕ) = (2 ^ 28 - 1) * 2 ^ 4 := by norm_num
  unfold getOffset
  rw [hmask]
  apply Nat.eq_of_testBit_eq
  intro i
  simp only [Nat.testBit_and, Nat.testBit_mul_two_pow, Nat.testBit_two_pow_sub_one,
    Nat.testBit_div_two_pow]
  by_cases hi : 4 ≤ i
  · have hadd : i - 4 + 4 = i := by omega
    by_cases h32 : i < 32
    · have : i - 4 < 28 := by omega
      simp [hi, hadd, this]
    · have hbig : h.testBit i = false :=
        Nat.testBit_lt_two_pow (hh.trans_le (Nat.pow_le_pow_right (by norm_num) (by omega)))
      simp [hadd, hbig]
  · simp [hi]

/-- A header built from a multiple of 16 and the more-segments bit gives both back.
Source: `tp.cpp`, `tp_split_message`, "insert tp_header" -/
theorem tpHeader_or {offset : ℕ} (h16 : offset % 16 = 0) (hlt : offset < 2 ^ 32) (more : Bool) :
    let header := offset ||| (if more then 1 else 0)
    header < 2 ^ 32 ∧ getOffset header = offset ∧ moreSegments header = more := by
  have hor : ∀ b < 2, offset ||| b = offset + b := by
    intro b hb
    have h₁ := Nat.two_pow_add_eq_or_of_lt (i := 4) (b := b) (by omega) (offset / 16)
    have h₂ : 2 ^ 4 * (offset / 16) = offset := by omega
    rw [h₂] at h₁
    exact h₁.symm
  cases more
  · have h₀ := hor 0 (by norm_num)
    simp only [Bool.false_eq_true, if_false, h₀, add_zero]
    refine ⟨hlt, ?_, ?_⟩
    · rw [getOffset_eq hlt]
      omega
    · have : offset &&& 1 = offset % 2 := Nat.and_one_is_mod offset
      simp only [moreSegments, this, bne_eq_false_iff_eq]
      omega
  · have h₀ := hor 1 (by norm_num)
    simp only [if_true, h₀]
    have hlt' : offset + 1 < 2 ^ 32 := by omega
    refine ⟨hlt', ?_, ?_⟩
    · rw [getOffset_eq hlt']
      omega
    · have : offset + 1 &&& 1 = (offset + 1) % 2 := Nat.and_one_is_mod (offset + 1)
      simp only [moreSegments, this, bne_iff_ne, ne_eq]
      omega

/-! ### The packed key of a segmented message -/

/-- The key under which the segments of one message are collected.
Source: `tp_reassembler.cpp`, `process_tp_message`, `its_tp_message_id` -/
def tpMessageId (service method client interfaceVersion msgType : ℕ) : ℕ :=
  service <<< 48 ||| method <<< 32 ||| client <<< 16 ||| interfaceVersion <<< 8 ||| msgType

theorem tpMessageId_eq {service method client interfaceVersion msgType : ℕ}
    (hm : method < 2 ^ 16) (hc : client < 2 ^ 16) (hi : interfaceVersion < 2 ^ 8)
    (ht : msgType < 2 ^ 8) : tpMessageId service method client interfaceVersion msgType =
      service * 2 ^ 48 + method * 2 ^ 32 + client * 2 ^ 16 + interfaceVersion * 2 ^ 8 +
        msgType := by
  unfold tpMessageId
  simp only [Nat.lor_assoc]
  rw [← Nat.shiftLeft_add_eq_or_of_lt ht, ← Nat.shiftLeft_add_eq_or_of_lt (i := 16),
    ← Nat.shiftLeft_add_eq_or_of_lt (i := 32), ← Nat.shiftLeft_add_eq_or_of_lt (i := 48)]
  all_goals simp only [Nat.shiftLeft_eq]
  all_goals omega

/-- The packed key keeps its fields apart. -/
theorem tpMessageId_inj {s s' m m' c c' i i' t t' : ℕ} (hm : m < 2 ^ 16) (hm' : m' < 2 ^ 16)
    (hc : c < 2 ^ 16) (hc' : c' < 2 ^ 16) (hi : i < 2 ^ 8) (hi' : i' < 2 ^ 8) (ht : t < 2 ^ 8)
    (ht' : t' < 2 ^ 8) (h : tpMessageId s m c i t = tpMessageId s' m' c' i' t') :
    s = s' ∧ m = m' ∧ c = c' ∧ i = i' ∧ t = t' := by
  rw [tpMessageId_eq hm hc hi ht, tpMessageId_eq hm' hc' hi' ht'] at h
  omega

end SomeipTunnel.Tp
