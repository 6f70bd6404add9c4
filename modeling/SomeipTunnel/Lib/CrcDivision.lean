import SomeipTunnel.Lib.Crc

/-!
# Cyclic redundancy checks as bitwise division

A check value is the remainder of a message, as a polynomial over the field with two elements, and
`divide` computes it bit by bit in a register. A `Division` adds the conventions: whether bytes go in
with their lowest bit first and the register is read backwards, and what is added at both ends.

* `divide_eq`: a division from any register is one from zero, of the bits with those of the register
  added. It turns bits into bytes.
* `foldl_forward` and `foldl_reflected`: the steps that look up a table of the remainders of single
  bytes compute the division.
* `Division.check_append`: a check goes on from the value of the first part.
* `Division.forward_eq_check` and `Division.reflected_eq_check`: a function that looks up the table
  of a division, `Division.remainders`, computes its check.
-/

namespace Crc

open List

variable {w : ℕ}

/-! ### Division -/

/-- One bit of the division. -/
def divideBit (poly register : BitVec w) (bit : Bool) : BitVec w :=
  register <<< 1 ^^^ if register.msb ^^ bit then poly else 0

/-- The register behind the bits. -/
def divide (poly register : BitVec w) (bits : List Bool) : BitVec w :=
  bits.foldl (divideBit poly) register

/-- The bits with the first ones of the register added. -/
def addTop : BitVec w → List Bool → List Bool
  | _, [] => []
  | register, bit :: bits => (register.msb ^^ bit) :: addTop (register <<< 1) bits

theorem addTop_xor (x y : BitVec w) (bits : List Bool) :
    addTop (x ^^^ y) bits = addTop x (addTop y bits) := by
  induction bits generalizing x y with
  | nil => rfl
  | cons bit bits ih =>
      simp only [addTop, BitVec.msb_xor, BitVec.shiftLeft_xor_distrib, ih, Bool.xor_assoc]

theorem length_addTop (x : BitVec w) (bits : List Bool) : (addTop x bits).length = bits.length := by
  induction bits generalizing x with
  | nil => rfl
  | cons bit bits ih => rw [addTop, length_cons, length_cons, ih]

/-- **Division from any register** is division from zero of the bits with those of the register
added; what is below them moves up. -/
theorem divide_eq (poly register : BitVec w) (bits : List Bool) : divide poly register bits =
      divide poly 0 (addTop register bits) ^^^ register <<< bits.length := by
  -- By the number of the bits: the rule is used for those that follow and for a sum with them.
  induction hn : bits.length generalizing register bits with
  | zero => simp [length_eq_zero_iff.mp hn, divide, addTop]
  | succ n ih =>
      obtain ⟨bit, bits, rfl⟩ := exists_cons_of_length_eq_add_one hn
      have hn' : bits.length = n := Nat.succ.inj hn
      let c : BitVec w := if register.msb ^^ bit then poly else 0
      have hleft : divide poly register (bit :: bits) =
          divide poly (register <<< 1 ^^^ c) bits := rfl
      have hright : divide poly 0 (addTop register (bit :: bits)) =
          divide poly c (addTop (register <<< 1) bits) := by
        simp [divide, addTop, divideBit, c]
      calc divide poly register (bit :: bits)
          = divide poly 0 (addTop (register <<< 1 ^^^ c) bits) ^^^ (register <<< 1 ^^^ c) <<< n := by
            rw [hleft, ih _ bits hn']
        _ = divide poly 0 (addTop c (addTop (register <<< 1) bits)) ^^^ c <<< n ^^^
              register <<< (n + 1) := by
            rw [BitVec.xor_comm (register <<< 1), addTop_xor, BitVec.shiftLeft_xor_distrib,
              ← BitVec.xor_assoc, ← BitVec.shiftLeft_add, Nat.add_comm 1 n]
        _ = divide poly 0 (addTop register (bit :: bits)) ^^^ register <<< (n + 1) := by
            rw [hright, ih c (addTop (register <<< 1) bits) (by rw [length_addTop, hn'])]

theorem addTop_map_range (register : BitVec w) (n : ℕ) (g : ℕ → Bool) :
    addTop register ((List.range n).map g) =
      (List.range n).map fun k => register.getMsbD k ^^ g k := by
  induction n generalizing register g with
  | zero => rfl
  | succ n ih =>
      rw [range_succ_eq_map, map_cons, addTop, map_map, ih, map_cons,
        map_map, BitVec.msb_eq_getMsbD_zero]
      simp only [BitVec.getMsbD_shiftLeft, Function.comp_def, Nat.succ_eq_add_one]

/-! ### Bytes -/

/-- The bits of a byte, the highest first. -/
def highFirst (byte : BitVec 8) : List Bool := (List.range 8).map byte.getMsbD

/-- The bits of a byte, the lowest first. -/
def lowFirst (byte : BitVec 8) : List Bool := (List.range 8).map byte.getLsbD

variable {table : BitVec 8 → BitVec w} {poly : BitVec w}

/-- The step with the highest byte first is eight bits of the division. -/
theorem forward_eq (hw : 8 ≤ w) (htable : ∀ i, table i = divide poly 0 (highFirst i))
    (crc : BitVec w) (byte : UInt8) :
    forward table crc byte = divide poly crc (highFirst byte.toBitVec) := by
  have hbits : highFirst ((crc >>> (w - 8)).setWidth 8 ^^^ byte.toBitVec) =
      addTop crc (highFirst byte.toBitVec) := by
    rw [highFirst, highFirst, addTop_map_range]
    refine map_congr_left fun k hk => ?_
    have hk8 := mem_range.mp hk
    rw [BitVec.getMsbD_xor, BitVec.getMsbD_eq_getLsbD, BitVec.getLsbD_setWidth,
      BitVec.getLsbD_ushiftRight, BitVec.getMsbD_eq_getLsbD crc]
    have hindex : w - 8 + (8 - 1 - k) = w - 1 - k := by omega
    have hlt : k < w := by omega
    have hlt8 : 8 - 1 - k < 8 := by omega
    simp [hindex, hk8, hlt, hlt8]
  have hlength : (highFirst byte.toBitVec).length = 8 := by simp [highFirst]
  rw [forward, htable, hbits, divide_eq poly crc, hlength]

/-- **A table with the highest byte first** computes the division. -/
theorem foldl_forward (hw : 8 ≤ w) (htable : ∀ i, table i = divide poly 0 (highFirst i))
    (crc : BitVec w) (bytes : List UInt8) : bytes.foldl (forward table) crc =
      divide poly crc (bytes.flatMap fun byte => highFirst byte.toBitVec) := by
  induction bytes generalizing crc with
  | nil => rfl
  | cons byte bytes ih =>
      rw [foldl_cons, ih, forward_eq hw htable, flatMap_cons]
      exact (foldl_append).symm

/-! ### Reading backwards -/

theorem reverse_reverse (x : BitVec w) : x.reverse.reverse = x :=
  BitVec.eq_of_getMsbD_eq fun i _ => by rw [BitVec.getMsbD_reverse, BitVec.getLsbD_reverse]

theorem reverse_xor (x y : BitVec w) : (x ^^^ y).reverse = x.reverse ^^^ y.reverse :=
  BitVec.eq_of_getMsbD_eq fun i _ => by
    simp only [BitVec.getMsbD_reverse, BitVec.getMsbD_xor, BitVec.getLsbD_xor]

theorem reverse_ushiftRight (x : BitVec w) (n : ℕ) : (x >>> n).reverse = x.reverse <<< n :=
  BitVec.eq_of_getMsbD_eq fun i _ => by
    rw [BitVec.getMsbD_reverse, BitVec.getLsbD_ushiftRight, BitVec.getMsbD_shiftLeft,
      BitVec.getMsbD_reverse, Nat.add_comm]

/-- The step with the lowest byte first is eight bits of the division, read backwards. -/
theorem reverse_reflected (htable : ∀ i, table i = (divide poly 0 (lowFirst i)).reverse)
    (crc : BitVec w) (byte : UInt8) :
    (reflected table crc byte).reverse = divide poly crc.reverse (lowFirst byte.toBitVec) := by
  have hbits : lowFirst (byte.toBitVec ^^^ crc.setWidth 8) =
      addTop crc.reverse (lowFirst byte.toBitVec) := by
    rw [lowFirst, lowFirst, addTop_map_range]
    refine map_congr_left fun k hk => ?_
    rw [BitVec.getLsbD_xor, BitVec.getLsbD_setWidth, BitVec.getMsbD_reverse,
      decide_eq_true (mem_range.mp hk), Bool.true_and, Bool.xor_comm]
  have hlength : (lowFirst byte.toBitVec).length = 8 := by simp [lowFirst]
  rw [reflected, reverse_xor, htable, reverse_reverse, reverse_ushiftRight, hbits,
    divide_eq poly crc.reverse, hlength]

/-- **A table with the lowest byte first** computes the division, read backwards. -/
theorem foldl_reflected (htable : ∀ i, table i = (divide poly 0 (lowFirst i)).reverse)
    (crc : BitVec w) (bytes : List UInt8) : bytes.foldl (reflected table) crc =
      (divide poly crc.reverse (bytes.flatMap fun byte => lowFirst byte.toBitVec)).reverse := by
  induction bytes generalizing crc with
  | nil => exact (reverse_reverse crc).symm
  | cons byte bytes ih =>
      rw [foldl_cons, ih, reverse_reflected htable, flatMap_cons]
      exact congrArg BitVec.reverse (foldl_append).symm

/-- A table that lists the values for all bytes. -/
theorem lookup_map_range (f : BitVec 8 → BitVec w) (i : BitVec 8) :
    lookup ((List.range 256).map fun n => f (BitVec.ofNat 8 n)) i = f i := by
  have hi : i.toNat < 256 := i.isLt
  rw [lookup, getD_eq_getElem?_getD, List.getElem?_map, List.getElem?_range hi]
  exact congrArg f (BitVec.ofNat_toNat 8 i |>.trans (BitVec.setWidth_eq i))

/-! ### Conventions -/

/-- A division with its conventions: bytes with their lowest bit first and the register backwards,
or neither; and what is added to the value before and behind. -/
structure Division (w : ℕ) where
  poly : BitVec w
  reflect : Bool
  xorOut : BitVec w

namespace Division

variable (d : Division w)

/-- A value as it stands in the register, and back. -/
def turn (x : BitVec w) : BitVec w := if d.reflect then x.reverse else x

/-- The bits of the bytes, in the order in which they go in. -/
def bits (bytes : List UInt8) : List Bool :=
  bytes.flatMap fun byte =>
    if d.reflect then lowFirst byte.toBitVec else highFirst byte.toBitVec

/-- The check value of the bytes behind those of `start`. -/
def check (bytes : List UInt8) (start : BitVec w) : BitVec w :=
  d.turn (divide d.poly (d.turn (start ^^^ d.xorOut)) (d.bits bytes)) ^^^ d.xorOut

theorem turn_turn (x : BitVec w) : d.turn (d.turn x) = x := by
  rw [turn, turn]
  split_ifs
  · exact reverse_reverse x
  · rfl

/-- The remainders of all bytes. -/
def remainders : List (BitVec w) :=
  (List.range 256).map fun n => d.turn (divide d.poly 0
    (if d.reflect then lowFirst (BitVec.ofNat 8 n) else highFirst (BitVec.ofNat 8 n)))

/-- **A check goes on** from the value of the first part. -/
theorem check_append (bytes bytes' : List UInt8) (start : BitVec w) :
    d.check (bytes ++ bytes') start = d.check bytes' (d.check bytes start) := by
  simp only [check, bits, flatMap_append, BitVec.xor_assoc, BitVec.xor_self, BitVec.xor_zero,
    turn_turn]
  rw [divide, foldl_append]
  rfl

section functions

variable {d : Division w} {words : List (BitVec w)}

/-- A function with the lowest byte first. -/
theorem reflected_eq_check (hreflect : d.reflect = true) (htable : words = d.remainders)
    (bytes : List UInt8) (start : BitVec w) :
    bytes.foldl (reflected (lookup words)) (start ^^^ d.xorOut) ^^^ d.xorOut =
      d.check bytes start := by
  have hlookup : ∀ i, lookup words i = (divide d.poly 0 (lowFirst i)).reverse := fun i => by
    rw [htable, remainders]
    simp only [hreflect, turn, if_true]
    exact lookup_map_range (fun i => (divide d.poly 0 (lowFirst i)).reverse) i
  rw [foldl_reflected hlookup]
  simp only [check, bits, turn, hreflect, if_true]

/-- A function with the highest byte first. -/
theorem forward_eq_check (hw : 8 ≤ w) (hreflect : d.reflect = false)
    (htable : words = d.remainders) (bytes : List UInt8) (start : BitVec w) :
    bytes.foldl (forward (lookup words)) (start ^^^ d.xorOut) ^^^ d.xorOut =
      d.check bytes start := by
  have hlookup : ∀ i, lookup words i = divide d.poly 0 (highFirst i) := fun i => by
    rw [htable, remainders]
    simp only [hreflect, turn, Bool.false_eq_true, if_false]
    exact lookup_map_range (fun i => divide d.poly 0 (highFirst i)) i
  rw [foldl_forward hw hlookup]
  simp only [check, bits, turn, hreflect,
    Bool.false_eq_true, if_false]

end functions

end Division

end Crc
