import Mathlib.Data.List.Basic

/-!
# Loops over the first elements of a fixed array

`forFirst v len f` is the loop `for (i = 0; i < len; i++)` that reads `v[i]` and handles it by `f`.
The array has a fixed size and the length comes from elsewhere, so the loop can read outside of the
array; it has a result only if it does not.

* `forFirst_eq`: the loop handles the first `len` elements, if there are as many.
* `isSome_forFirst`: when a loop has a result.
-/

namespace Access

variable {α β : Type*} {n : ℕ}

/-- `for (i = 0; i < len; i++)` over the elements of `v`, each handled by `f`. -/
def forFirst (v : Vector α n) (len : ℕ) (f : α → Option β) : Option (List β) :=
  (List.range len).mapM fun i => v[i]?.bind f

/-- The first elements of an array, those in front of `len`. -/
def first (v : Vector α n) (len : ℕ) : List α := v.toList.take len

theorem length_first {v : Vector α n} {len : ℕ} (h : len ≤ n) : (first v len).length = len := by
  simp [first, h]

theorem first_eq_nil {v : Vector α n} {len : ℕ} : first v len = [] ↔ len = 0 ∨ n = 0 := by
  simp [first, List.take_eq_nil_iff]

/-- **The loop handles the first elements**, if the array has as many. -/
theorem forFirst_eq (v : Vector α n) (len : ℕ) (f : α → Option β) :
    forFirst v len f = if len ≤ n then (first v len).mapM f else none := by
  induction len with
  | zero => simp [forFirst, first]
  | succ len ih =>
      unfold forFirst first at ih ⊢
      rw [List.range_succ, List.mapM_append, ih, List.take_add_one, List.mapM_append]
      by_cases h : len + 1 ≤ n
      · have hget : v[len]? = some v[len] := Vector.getElem?_eq_getElem h
        have hlist : v.toList[len]? = some v[len] := by simp
        rw [if_pos h, if_pos (by omega), hlist]
        simp [hget]
      · have hnone : v[len]? = none := Vector.getElem?_eq_none (by omega)
        rw [if_neg h]
        simp [hnone]

/-- A loop whose body always succeeds. -/
theorem forFirst_some (v : Vector α n) (len : ℕ) (g : α → β) :
    forFirst v len (fun a => some (g a)) = if len ≤ n then some ((first v len).map g) else none := by
  rw [forFirst_eq]
  congr 1
  induction first v len with
  | nil => rfl
  | cons a as ih => simp [ih]

/-- The loop that only reads. -/
theorem forFirst_read (v : Vector α n) (len : ℕ) :
    forFirst v len some = if len ≤ n then some (first v len) else none := by
  simpa using forFirst_some v len id

/-- A loop succeeds iff it stays inside the array and each element is handled. -/
theorem isSome_forFirst {v : Vector α n} {len : ℕ} {f : α → Option β} :
    (forFirst v len f).isSome ↔ len ≤ n ∧ ∀ a ∈ first v len, (f a).isSome := by
  rw [forFirst_eq]
  split_ifs with h
  · simp only [h, true_and]
    induction first v len with
    | nil => simp
    | cons a as ih =>
        rw [List.forall_mem_cons, ← ih, List.mapM_cons]
        rcases f a with _ | b
        · simp
        · rcases as.mapM f with _ | bs
          · simp
          · simp
  · simp [h]

end Access
