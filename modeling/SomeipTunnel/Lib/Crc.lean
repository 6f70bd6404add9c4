import Mathlib.Data.BitVec
import SomeipTunnel.Lib.Buffer

/-!
# Checks that are computed letter by letter

A check value is a fold of a step over the letters of a message. Where the step is `Lossless` (with
the letter fixed it is injective in the state, with the state fixed it is injective in the letter),
a message with one letter replaced has another check value (`Lossless.foldl_set_ne`). Nothing about
the length of the message or about polynomials is needed for that.

* `reflected table` and `forward table` are the two steps of a cyclic redundancy check that looks up
  a table of 256 words; a column of the table with every byte in it makes them lossless
  (`lookup_injective`, `lossless_reflected`, `lossless_forward`).
* `without b i n` is a message around a field, the check's own place. One changed letter is either
  in the field or outside it (`slice_set_of_mem`, `without_set_of_mem`, `slice_set_of_not_mem`,
  `without_set_of_not_mem`), so that exactly one of the field and the check value changes
  (`Lossless.field_or_check`).
-/

namespace Crc

open Buffer List

/-! ### Lossless steps -/

section Lossless

variable {σ α : Type*} {step : σ → α → σ}

/-- The step tells states apart under each letter, and letters apart in each state. -/
structure Lossless (step : σ → α → σ) : Prop where
  state : ∀ a, Function.Injective fun s => step s a
  letter : ∀ s, Function.Injective (step s)

theorem Lossless.foldl_injective (h : Lossless step) (as : List α) :
    Function.Injective fun s => as.foldl step s := by
  induction as with
  | nil => exact fun _ _ heq => heq
  | cons a as ih => exact fun s s' heq => h.state a (ih heq)

/-- **One replaced letter changes the value.** -/
theorem Lossless.foldl_set_ne (h : Lossless step) (s : σ) {as : List α} {i : ℕ} {a : α}
    (hi : i < as.length) (ha : as[i] ≠ a) : (as.set i a).foldl step s ≠ as.foldl step s := by
  induction as generalizing s i with
  | nil => exact absurd hi (Nat.not_lt_zero i)
  | cons b as ih =>
      cases i with
      | zero =>
          rw [set_cons_zero, foldl_cons, foldl_cons]
          intro heq
          exact ha (h.letter s (h.foldl_injective as heq)).symm
      | succ i =>
          rw [set_cons_succ, foldl_cons, foldl_cons]
          exact ih (step s b) (Nat.lt_of_succ_lt_succ hi) ha

end Lossless

/-! ### Steps from a table -/

section Table

variable {w : ℕ} (table : BitVec 8 → BitVec w)

/-- A step with the lowest byte first. -/
def reflected (crc : BitVec w) (byte : UInt8) : BitVec w :=
  table (byte.toBitVec ^^^ crc.setWidth 8) ^^^ (crc >>> 8)

/-- A step with the highest byte first. -/
def forward (crc : BitVec w) (byte : UInt8) : BitVec w :=
  table ((crc >>> (w - 8)).setWidth 8 ^^^ byte.toBitVec) ^^^ (crc <<< 8)

variable {table}

/-- The words of a table of 256. -/
def lookup (words : List (BitVec w)) (i : BitVec 8) : BitVec w := words.getD i.toNat 0

/-- The numbers of a list as the bits of one number. -/
def marks (ns : List ℕ) : ℕ := ns.foldr (fun n acc => 2 ^ n ||| acc) 0

theorem testBit_marks (ns : List ℕ) (n : ℕ) : (marks ns).testBit n = decide (n ∈ ns) := by
  induction ns with
  | nil => simp [marks]
  | cons m ns ih =>
      rw [marks, foldr_cons, Nat.testBit_or, Nat.testBit_two_pow, ← marks, ih,
        ← Bool.decide_or]
      exact decide_eq_decide.mpr (by rw [mem_cons, eq_comm])

/-- A list that has all the numbers below its length has none twice. -/
theorem nodup_of_marks {ns : List ℕ} (h : marks ns = 2 ^ ns.length - 1) : ns.Nodup := by
  have hsub : List.range ns.length ⊆ ns := by
    intro n hn
    have hbit := testBit_marks ns n
    rw [h, Nat.testBit_two_pow_sub_one, decide_eq_true (mem_range.mp hn)] at hbit
    exact of_decide_eq_true hbit.symm
  have hperm : (List.range ns.length).Perm ns :=
    (subperm_of_subset nodup_range hsub).perm_of_length_le
      (by rw [length_range])
  exact hperm.nodup_iff.mp nodup_range

/-- A column of the table that has every byte. -/
theorem lookup_injective {v : ℕ} {words : List (BitVec w)} {f : BitVec w → BitVec v}
    (hlength : words.length = 256) (h : marks (words.map fun t => (f t).toNat) = 2 ^ 256 - 1) :
    Function.Injective fun i => f (lookup words i) := by
  have hnodup : (words.map fun t => (f t).toNat).Nodup :=
    nodup_of_marks (by rw [h, length_map, hlength])
  have hget (i : BitVec 8) : ∃ hi : i.toNat < (words.map fun t => (f t).toNat).length,
      (words.map fun t => (f t).toNat)[i.toNat] = (f (lookup words i)).toNat := by
    refine ⟨by rw [length_map, hlength]; exact i.isLt, ?_⟩
    rw [lookup, getElem_map, getD_eq_getElem?_getD, List.getElem?_eq_getElem,
      Option.getD_some]
  intro i j heq
  obtain ⟨hi, hgi⟩ := hget i
  obtain ⟨hj, hgj⟩ := hget j
  refine BitVec.eq_of_toNat_eq ((@List.Nodup.getElem_inj_iff _ _ hnodup _ hi _ hj).mp ?_)
  rw [hgi, hgj]
  exact congrArg BitVec.toNat heq

theorem eq_of_low_of_high {s s' : BitVec w} (hlow : s.setWidth 8 = s'.setWidth 8)
    (hhigh : s >>> 8 = s' >>> 8) : s = s' := by
  apply BitVec.eq_of_toNat_eq
  have h₁ := congrArg BitVec.toNat hlow
  have h₂ := congrArg BitVec.toNat hhigh
  simp only [BitVec.toNat_setWidth, BitVec.toNat_ushiftRight, Nat.shiftRight_eq_div_pow] at h₁ h₂
  omega

/-- The highest bytes of the table's words are distinct: the word that was looked up, and so the
index, can be read off the state behind the step. -/
theorem lossless_reflected (hw : 8 ≤ w)
    (htable : Function.Injective fun i => table i >>> (w - 8)) : Lossless (reflected table) where
  state byte s s' h := by
    have htop (t : BitVec w) : (t >>> 8) >>> (w - 8) = 0#w := by
      rw [← BitVec.shiftRight_add, Nat.add_sub_cancel' hw]
      exact BitVec.ushiftRight_eq_zero le_rfl
    have hindex : byte.toBitVec ^^^ s.setWidth 8 = byte.toBitVec ^^^ s'.setWidth 8 := by
      apply htable
      have : reflected table s byte >>> (w - 8) = reflected table s' byte >>> (w - 8) :=
        congrArg (fun t : BitVec w => t >>> (w - 8)) h
      simpa only [reflected, BitVec.ushiftRight_xor_distrib, htop, BitVec.xor_zero] using this
    refine eq_of_low_of_high ((BitVec.xor_right_inj _).mp hindex) ?_
    simp only [reflected, hindex] at h
    exact (BitVec.xor_right_inj _).mp h
  letter s byte byte' h := by
    have hindex := htable
      (congrArg (fun t : BitVec w => t >>> (w - 8)) ((BitVec.xor_left_inj _).mp h))
    exact UInt8.toBitVec_inj.mp ((BitVec.xor_left_inj _).mp hindex)

/-- The same with the lowest bytes of the words, which a step with the highest byte first leaves in
place. -/
theorem lossless_forward (hw : 8 ≤ w)
    (htable : Function.Injective fun i => (table i).setWidth 8) : Lossless (forward table) where
  state byte s s' h := by
    have hlow (t : BitVec w) : (t <<< 8).setWidth 8 = 0#8 := by
      ext i hi
      simp [hi]
    have hindex : (s >>> (w - 8)).setWidth 8 ^^^ byte.toBitVec =
        (s' >>> (w - 8)).setWidth 8 ^^^ byte.toBitVec := by
      apply htable
      have := congrArg (·.setWidth 8) h
      simpa only [forward, BitVec.setWidth_xor, hlow, BitVec.xor_zero] using this
    have hhigh := congrArg BitVec.toNat ((BitVec.xor_left_inj _).mp hindex)
    simp only [forward, hindex] at h
    have hshift := congrArg BitVec.toNat ((BitVec.xor_right_inj _).mp h)
    obtain ⟨v, rfl⟩ := Nat.exists_eq_add_of_le hw
    simp only [BitVec.toNat_setWidth, BitVec.toNat_ushiftRight, BitVec.toNat_shiftLeft,
      Nat.shiftRight_eq_div_pow, Nat.shiftLeft_eq, Nat.add_sub_cancel_left,
      Nat.pow_add] at hhigh hshift
    apply BitVec.eq_of_toNat_eq
    have hs : s.toNat / 2 ^ v < 2 ^ 8 :=
      Nat.div_lt_of_lt_mul (by rw [Nat.mul_comm, ← Nat.pow_add]; exact s.isLt)
    have hs' : s'.toNat / 2 ^ v < 2 ^ 8 :=
      Nat.div_lt_of_lt_mul (by rw [Nat.mul_comm, ← Nat.pow_add]; exact s'.isLt)
    rw [Nat.mod_eq_of_lt hs, Nat.mod_eq_of_lt hs'] at hhigh
    rw [Nat.mul_comm (2 ^ 8), Nat.mul_mod_mul_right, Nat.mul_mod_mul_right] at hshift
    rw [← Nat.div_add_mod s.toNat (2 ^ v), ← Nat.div_add_mod s'.toNat (2 ^ v), hhigh,
      Nat.eq_of_mul_eq_mul_right (by decide) hshift]
  letter s byte byte' h := by
    have hindex := htable (congrArg (·.setWidth 8) ((BitVec.xor_left_inj _).mp h))
    exact UInt8.toBitVec_inj.mp ((BitVec.xor_right_inj _).mp hindex)

end Table

/-! ### A check value that stands in the message -/

section Field

variable {σ α : Type*} {step : σ → α → σ} {b : List α} {a : α} {i k n : ℕ}

/-- The message around the `n` letters from index `i` on. -/
def without (b : List α) (i n : ℕ) : List α := b.take i ++ b.drop (i + n)

theorem slice_set_of_mem (hi : i ≤ k) : slice (b.set k a) i n = (slice b i n).set (k - i) a := by
  rw [slice, slice, drop_set, if_neg (by omega), take_set]

theorem without_set_of_mem (hi : i ≤ k) (hk : k < i + n) :
    without (b.set k a) i n = without b i n := by
  rw [without, without, take_set, drop_set, if_pos hk, set_eq_of_length_le]
  simp only [length_take]
  omega

theorem slice_set_of_not_mem (hk : k < i ∨ i + n ≤ k) : slice (b.set k a) i n = slice b i n := by
  rw [slice, slice, drop_set]
  split_ifs with hlt
  · rfl
  · rw [take_set, set_eq_of_length_le]
    simp only [length_take, length_drop]
    omega

/-- A letter outside the field stands somewhere in the message around it. -/
theorem without_set_of_not_mem (hk : k < i ∨ i + n ≤ k) (hb : k < b.length) (h : i + n ≤ b.length) :
    ∃ (j : ℕ) (hj : j < (without b i n).length),
      without (b.set k a) i n = (without b i n).set j a ∧ (without b i n)[j] = b[k] := by
  have hlength : (b.take i).length = i := by
    simp only [length_take]
    omega
  rcases hk with hk | hk
  · refine ⟨k, by simp only [without, length_append]; omega, ?_, ?_⟩
    · rw [without, without, take_set, drop_set, if_pos (by omega),
        set_append_left _ _ (by omega)]
    · simp only [without]
      rw [getElem_append_left (by omega), getElem_take]
  · refine ⟨i + (k - (i + n)), ?_, ?_, ?_⟩
    · simp only [without, length_append, length_drop]
      omega
    · rw [without, without, take_set, drop_set, if_neg (by omega),
        set_eq_of_length_le (by omega), set_append_right _ _ (by omega), hlength]
      congr 2
      omega
    · simp only [without]
      rw [getElem_append_right (by omega), getElem_drop]
      congr 1
      omega

/-- **Exactly one of the field and the check value changes** with one letter of the message; `rest`
are letters the check is computed over and the message does not have. -/
theorem Lossless.field_or_check (hstep : Lossless step) (s : σ) (rest : List α)
    (h : i + n ≤ b.length) (hk : k < b.length) (ha : b[k] ≠ a) :
    slice (b.set k a) i n = slice b i n ∧
        (without (b.set k a) i n ++ rest).foldl step s ≠ (without b i n ++ rest).foldl step s ∨
      slice (b.set k a) i n ≠ slice b i n ∧ without (b.set k a) i n = without b i n := by
  by_cases hmem : i ≤ k ∧ k < i + n
  · right
    refine ⟨?_, without_set_of_mem hmem.1 hmem.2⟩
    rw [slice_set_of_mem hmem.1]
    intro heq
    have hlt : k - i < (slice b i n).length := by
      rw [length_slice h]
      omega
    have hget := congrArg (·[k - i]?) heq
    simp only [List.getElem?_set_self hlt] at hget
    rw [getElem?_slice (by omega), Nat.add_sub_cancel' hmem.1, List.getElem?_eq_getElem hk] at hget
    exact ha (Option.some.inj hget).symm
  · left
    have hout : k < i ∨ i + n ≤ k := by omega
    refine ⟨slice_set_of_not_mem hout, ?_⟩
    obtain ⟨j, hj, hset, hget⟩ := without_set_of_not_mem (a := a) hout hk h
    rw [hset, foldl_append, foldl_append]
    intro heq
    exact hstep.foldl_set_ne s hj (hget ▸ ha) (hstep.foldl_injective rest heq)

end Field

end Crc
