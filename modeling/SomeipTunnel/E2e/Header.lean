import SomeipTunnel.E2e.Profile

/-!
# The header of a protected buffer

What is written at an index is read there, and other fields keep what they had (`Wrote`,
`exists_wrote`). The check value is computed over everything but its own field
(`Profile04.computeCrc_eq` and the same for 05 and 07), whatever the length of the buffer.

`SealedAt` says that the field holds the check value of what is around it; one changed byte breaks it
(`SealedAt.not_set`).
-/

namespace SomeipTunnel.E2e

open Buffer Codec Crc List

/-! ### Fields -/

section Fields

variable {w w' : ℕ} {buffer : List UInt8} {index index' : ℕ} {value : BitVec w}

theorem readUintBe_eq (h : index + w / 8 ≤ buffer.length) :
    readUintBe w buffer index = some (BitVec.ofNat w (ofBytes (slice buffer index (w / 8)))) :=
  if_pos h

theorem length_overwrite_toBytes {n v : ℕ} (h : index + n ≤ buffer.length) :
    (overwrite buffer index (toBytes n v)).length = buffer.length :=
  length_overwrite (by rwa [length_toBytes])

theorem pow_bytes (hw : 8 ∣ w) : 256 ^ (w / 8) = 2 ^ w := by
  obtain ⟨n, rfl⟩ := hw
  rw [Nat.mul_div_cancel_left n (by decide), Nat.pow_mul]

theorem ofNat_ofBytes_toBytes (hw : 8 ∣ w) (value : BitVec w) :
    BitVec.ofNat w (ofBytes (toBytes (w / 8) value.toNat)) = value := by
  rw [ofBytes_toBytes, pow_bytes hw, Nat.mod_eq_of_lt value.isLt, BitVec.ofNat_toNat,
    BitVec.setWidth_eq]

/-- Different bytes are different values. -/
theorem ofBytes_inj {bs bs' : List UInt8} (hw : 8 ∣ w) (h : bs.length = w / 8)
    (h' : bs'.length = w / 8)
    (heq : BitVec.ofNat w (ofBytes bs) = BitVec.ofNat w (ofBytes bs')) : bs = bs' := by
  have hlt := ofBytes_lt bs
  have hlt' := ofBytes_lt bs'
  rw [h, pow_bytes hw] at hlt
  rw [h', pow_bytes hw] at hlt'
  have hnat := congrArg BitVec.toNat heq
  rw [BitVec.toNat_ofNat, BitVec.toNat_ofNat, Nat.mod_eq_of_lt hlt, Nat.mod_eq_of_lt hlt'] at hnat
  rw [← toBytes_ofBytes bs, ← toBytes_ofBytes bs', hnat, h, h']

theorem slice_overwrite {src : List UInt8} (h : index + src.length ≤ buffer.length) :
    slice (overwrite buffer index src) index src.length = src := by
  have hlength : (buffer.take index).length = index := by
    rw [length_take]
    omega
  rw [slice, overwrite, append_assoc, drop_left' hlength, take_left]

theorem slice_overwrite_of_disjoint {src : List UInt8} {n : ℕ}
    (h : index + src.length ≤ buffer.length)
    (hdisjoint : index' + n ≤ index ∨ index + src.length ≤ index') :
    slice (overwrite buffer index src) index' n = slice buffer index' n := by
  apply ext_getElem?
  intro k
  by_cases hk : k < n
  · rw [getElem?_slice hk, getElem?_slice hk, getElem?_overwrite_of_not_mem h (by omega)]
  · rw [List.getElem?_eq_none (length_slice_le.trans (Nat.le_of_not_lt hk)),
      List.getElem?_eq_none (length_slice_le.trans (Nat.le_of_not_lt hk))]

/-- A field holds what was written to it. -/
theorem readUintBe_overwrite (hw : 8 ∣ w) (h : index + w / 8 ≤ buffer.length) :
    readUintBe w (overwrite buffer index (toBytes (w / 8) value.toNat)) index = some value := by
  have hslice : slice (overwrite buffer index (toBytes (w / 8) value.toNat)) index (w / 8) =
      toBytes (w / 8) value.toNat := by
    have := @slice_overwrite buffer index (toBytes (w / 8) value.toNat) (by rwa [length_toBytes])
    rwa [length_toBytes] at this
  rw [readUintBe_eq (by rwa [length_overwrite_toBytes h]), hslice, ofNat_ofBytes_toBytes hw]

/-- A field keeps what it had where another one is written. -/
theorem readUintBe_overwrite_of_disjoint {n v : ℕ} (h : index + n ≤ buffer.length)
    (hdisjoint : index' + w / 8 ≤ index ∨ index + n ≤ index') :
    readUintBe w (overwrite buffer index (toBytes n v)) index' = readUintBe w buffer index' := by
  rw [readUintBe, readUintBe, length_overwrite_toBytes h, slice_overwrite_of_disjoint]
  · rwa [length_toBytes]
  · rwa [length_toBytes]

/-- The message around a field does not depend on the field. -/
theorem without_overwrite {n v : ℕ} (h : index + n ≤ buffer.length) :
    without (overwrite buffer index (toBytes n v)) index n = without buffer index n := by
  have hlength : (buffer.take index ++ toBytes n v).length = index + n := by
    rw [length_append, length_take, length_toBytes]
    omega
  rw [without, without, take_overwrite le_rfl (by omega), overwrite, drop_left' hlength,
    length_toBytes]

/-- The effect of writing a value at an index: it can be read there, the bytes outside its field are
as they were, and so is what is read from other fields. -/
structure Wrote {w : ℕ} (value : BitVec w) (index : ℕ) (buffer buffer' : List UInt8) : Prop where
  length : buffer'.length = buffer.length
  here : readUintBe w buffer' index = some value
  elsewhere : ∀ {w' index' : ℕ}, index' + w' / 8 ≤ index ∨ index + w / 8 ≤ index' →
    readUintBe w' buffer' index' = readUintBe w' buffer index'
  outside : ∀ {k : ℕ}, k < index ∨ index + w / 8 ≤ k → buffer'[k]? = buffer[k]?
  around : without buffer' index (w / 8) = without buffer index (w / 8)

theorem exists_wrote (hw : 8 ∣ w) (h : index + w / 8 ≤ buffer.length) (value : BitVec w) :
    ∃ buffer', writeUintBe value buffer index = some buffer' ∧ Wrote value index buffer buffer' := by
  refine ⟨_, if_pos h, length_overwrite_toBytes h, readUintBe_overwrite hw h, fun hdisjoint =>
    readUintBe_overwrite_of_disjoint h hdisjoint, fun hk => ?_, without_overwrite h⟩
  exact getElem?_overwrite_of_not_mem (by rwa [length_toBytes]) (by rwa [length_toBytes])

end Fields

/-! ### The check value of what is around its field -/

section SealedAt

variable {w : ℕ} {step : BitVec w → UInt8 → BitVec w} {start finish : BitVec w}
  {rest buffer : List UInt8} {index : ℕ}

/-- The check value over everything but the `w / 8` bytes at an index, and over `rest`. -/
def crcAround (step : BitVec w → UInt8 → BitVec w) (start finish : BitVec w) (rest : List UInt8)
    (buffer : List UInt8) (index : ℕ) : BitVec w :=
  (without buffer index (w / 8) ++ rest).foldl step start ^^^ finish

/-- The field holds the check value of what is around it. -/
def SealedAt (step : BitVec w → UInt8 → BitVec w) (start finish : BitVec w) (rest : List UInt8)
    (buffer : List UInt8) (index : ℕ) : Prop :=
  readUintBe w buffer index = some (crcAround step start finish rest buffer index)

/-- **One changed byte breaks the seal**, in the field or outside it. -/
theorem SealedAt.not_set {k : ℕ} {a : UInt8} (hstep : Lossless step) (hw : 8 ∣ w)
    (h : index + w / 8 ≤ buffer.length) (hsealed : SealedAt step start finish rest buffer index)
    (hk : k < buffer.length) (ha : buffer[k] ≠ a) :
    ¬ SealedAt step start finish rest (buffer.set k a) index := by
  intro hsealed'
  rw [SealedAt, readUintBe_eq h, Option.some_inj] at hsealed
  rw [SealedAt, readUintBe_eq (by rwa [length_set]), Option.some_inj] at hsealed'
  rcases hstep.field_or_check start rest h hk ha with ⟨hslice, hcheck⟩ | ⟨hslice, hwithout⟩
  · rw [hslice, hsealed, crcAround, crcAround, BitVec.xor_left_inj] at hsealed'
    exact hcheck hsealed'.symm
  · rw [crcAround, hwithout, ← crcAround, ← hsealed] at hsealed'
    have hlength : (slice (buffer.set k a) index (w / 8)).length = w / 8 :=
      length_slice (by rwa [length_set])
    exact hslice (ofBytes_inj hw hlength (length_slice h) hsealed')

end SealedAt

/-! ### The computed values -/

variable {buffer buffer' : List UInt8} {index start stop : ℕ}

theorem bufferView_eq (h : start ≤ stop) (h' : stop ≤ buffer.length) :
    bufferView buffer start stop = some (slice buffer start (stop - start)) := if_pos ⟨h, h'⟩

/-- The bytes in front of a field and, if there are any, those behind it. -/
theorem bind_views {n : ℕ} {f : List UInt8 → List UInt8 → α} {g : List UInt8 → α}
    (hnil : ∀ bs, f bs [] = g bs) (h : index + n ≤ buffer.length) :
    ((bufferView buffer 0 index).bind fun before =>
      if index + n < buffer.length then
        (bufferView buffer (index + n) buffer.length).bind fun after => some (f before after)
      else some (g before)) = some (f (buffer.take index) (buffer.drop (index + n))) := by
  have hafter : slice buffer (index + n) (buffer.length - (index + n)) = buffer.drop (index + n) :=
    take_of_length_le (by rw [length_drop])
  rw [bufferView_eq (Nat.zero_le _) (by omega), Option.bind_some]
  split_ifs with hlt
  · rw [bufferView_eq h le_rfl, Option.bind_some, hafter]
    rfl
  · rw [drop_eq_nil_of_le (by omega), hnil]
    rfl

/-- A value computed in two calls is the value of the bytes one behind the other. -/
theorem calculate_append {w : ℕ} (step : BitVec w → UInt8 → BitVec w) (start ones : BitVec w)
    (bs bs' : List UInt8) :
    bs'.foldl step ((bs.foldl step (start ^^^ ones) ^^^ ones) ^^^ ones) ^^^ ones =
      (bs ++ bs').foldl step (start ^^^ ones) ^^^ ones := by
  rw [BitVec.xor_assoc, BitVec.xor_self, BitVec.xor_zero, foldl_append]

theorem Profile04.computeCrc_eq {config : Profile04.Config} (h : config.offset + 12 ≤ buffer.length) :
    Profile04.computeCrc config buffer = some (crcAround (reflected (lookup lookupTableProfile04))
      (0 ^^^ 0xFFFFFFFF) 0xFFFFFFFF [] buffer (config.offset + 8)) := by
  have happend := calculate_append (reflected (lookup lookupTableProfile04)) 0 0xFFFFFFFF
  rw [crcAround, append_nil, without, ← happend]
  refine bind_views (n := 4) (fun bs => (happend bs []).trans ?_) h
  rw [append_nil, calculateProfile04]

theorem Profile05.computeCrc_eq {config : Profile05.Config} (h : config.offset + 2 ≤ buffer.length) :
    Profile05.computeCrc config buffer = some (crcAround (forward (lookup lookupTableProfile05))
      0xFFFF 0#16 (Profile05.dataIdView config) buffer config.offset) := by
  rw [crcAround, BitVec.xor_zero, foldl_append, without, foldl_append]
  exact bind_views (fun _ => rfl) h

theorem Profile07.computeCrc_eq {config : Profile07.Config} (h : config.offset + 8 ≤ buffer.length) :
    Profile07.computeCrc config buffer = some (crcAround (reflected (lookup lookupTableProfile07))
      (0 ^^^ 0xFFFFFFFFFFFFFFFF) 0xFFFFFFFFFFFFFFFF [] buffer config.offset) := by
  have happend := calculate_append (reflected (lookup lookupTableProfile07)) 0 0xFFFFFFFFFFFFFFFF
  rw [crcAround, append_nil, without, ← happend]
  refine bind_views (fun bs => (happend bs []).trans ?_) h
  rw [append_nil, calculateProfile07]

/-- A profile looks at the instance and at the length of a buffer. -/
theorem Profile.admits_of_length_eq {p : Profile} {config : p.Config} {inst : UInt16}
    (h : buffer'.length = buffer.length) :
    (p.checker config).admits inst buffer' = (p.checker config).admits inst buffer := by
  cases p with
  | p04 => simp only [checker, Profile04.checker, Profile04.admits, Profile04.verifyInput, h]
  | p05 => simp only [checker, Profile05.checker, Profile05.admits, Profile05.isBufferLengthValid, h]
  | p07 => simp only [checker, Profile07.checker, Profile07.admits, Profile07.verifyInput, h]

end SomeipTunnel.E2e
