import Mathlib.Data.List.Basic

/-!
# Byte buffers as lists

The three ways a growing buffer (C++ `std::vector`) is written: `resize` to a size, with a filler
for what is new, appending, and `overwrite` of a range in its middle (`memcpy`). `slice` is what is
read. Each operation has its length, its elements and what it keeps of an initial part.
-/

namespace Buffer

open List

variable {α : Type*}

/-- The `n` elements from index `i` on. -/
def slice (b : List α) (i n : ℕ) : List α := (b.drop i).take n

/-- The buffer cut or filled up to `n` elements. -/
def resize (b : List α) (n : ℕ) (a : α) : List α := b.take n ++ List.replicate (n - b.length) a

/-- The buffer with `src` written over the elements from index `dst` on. -/
def overwrite (b : List α) (dst : ℕ) (src : List α) : List α :=
  b.take dst ++ src ++ b.drop (dst + src.length)

variable {b src : List α} {a : α} {i n dst : ℕ}

theorem length_slice (h : i + n ≤ b.length) : (slice b i n).length = n := by
  simp only [slice, length_take, length_drop]
  omega

theorem length_slice_le : (slice b i n).length ≤ n := length_take_le _ _

theorem getElem?_slice {k : ℕ} (h : k < n) : (slice b i n)[k]? = b[i + k]? := by
  simp [slice, h, List.getElem?_drop]

@[simp] theorem slice_zero : slice b i 0 = [] := by
  simp [slice]

@[simp] theorem length_resize : (resize b n a).length = n := by
  simp only [resize, length_append, length_take, length_replicate]
  omega

theorem getElem?_resize (hk : i < b.length) (hn : i < n) : (resize b n a)[i]? = b[i]? := by
  rw [resize, List.getElem?_append_left (by simp; omega), List.getElem?_take, if_pos hn]

theorem take_resize (h : i ≤ b.length) (hn : i ≤ n) : (resize b n a).take i = b.take i := by
  rw [resize, take_append_of_le_length (by simp; omega), take_take, Nat.min_eq_left hn]

@[simp] theorem overwrite_nil : overwrite b dst [] = b := by
  simp [overwrite]

theorem length_overwrite (h : dst + src.length ≤ b.length) :
    (overwrite b dst src).length = b.length := by
  simp only [overwrite, length_append, length_take, length_drop]
  omega

theorem getElem?_overwrite_of_mem (h : dst + src.length ≤ b.length) (h₁ : dst ≤ i)
    (h₂ : i < dst + src.length) : (overwrite b dst src)[i]? = src[i - dst]? := by
  have hlen : (b.take dst).length = dst := by simp; omega
  rw [overwrite, append_assoc, List.getElem?_append_right (by omega), hlen,
    List.getElem?_append_left (by omega)]

theorem getElem?_overwrite_of_not_mem (h : dst + src.length ≤ b.length)
    (hi : i < dst ∨ dst + src.length ≤ i) : (overwrite b dst src)[i]? = b[i]? := by
  have hlen : (b.take dst).length = dst := by simp; omega
  rcases hi with hi | hi
  · rw [overwrite, append_assoc, List.getElem?_append_left (by omega), List.getElem?_take,
      if_pos hi]
  · rw [overwrite, List.getElem?_append_right (by simp; omega), length_append, hlen,
      List.getElem?_drop]
    congr 1
    omega

theorem take_overwrite (h : i ≤ dst) (hd : dst ≤ b.length) :
    (overwrite b dst src).take i = b.take i := by
  rw [overwrite, append_assoc, take_append_of_le_length (by simp; omega),
    take_take, Nat.min_eq_left h]

end Buffer
