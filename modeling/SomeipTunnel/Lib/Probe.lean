import Mathlib.Data.List.Basic

/-!
# Programs that read a buffer

A program that reads single elements of a buffer: its value, and the indices it has read, in order.
Which element is read next may depend on those before, and an index behind the end of the buffer is
recorded like any other; the value read there is the default one.

`Within n p b` says that on the buffer `b` the program `p` reads no index from `n` on. It is computed
along the program by `within_bind`, `within_read` and `within_pure`, so that what a program reads is
a matter of simplification; `value_bind` and its companions do the same for the value.
-/

/-- A program that reads elements of type `β` and gives an `α`. -/
def Probe (β α : Type*) := List β → α × List ℕ

namespace Probe

variable {β α γ : Type} {n : ℕ} {b : List β}

/-- What the program gives. -/
def value (p : Probe β α) (b : List β) : α := (p b).1

/-- The indices that the program reads. -/
def reads (p : Probe β α) (b : List β) : List ℕ := (p b).2

instance : Monad (Probe β) where
  pure a := fun _ => (a, [])
  bind p f := fun b => ((f (p b).1 b).1, (p b).2 ++ (f (p b).1 b).2)

/-- The element at an index. -/
def read [Inhabited β] (i : ℕ) : Probe β β := fun b => (b.getD i default, [i])

/-- The buffer itself, of which nothing is read. -/
def buffer : Probe β (List β) := fun b => (b, [])

/-- All indices that the program reads are below `n`. -/
def Within (n : ℕ) (p : Probe β α) (b : List β) : Prop := ∀ i ∈ p.reads b, i < n

instance (n : ℕ) (p : Probe β α) (b : List β) : Decidable (Within n p b) :=
  inferInstanceAs (Decidable (∀ i ∈ _, _))

/-! ### Values -/

@[simp] theorem value_pure (a : α) (b : List β) : value (pure a : Probe β α) b = a := rfl

@[simp] theorem value_bind (p : Probe β α) (f : α → Probe β γ) (b : List β) :
    value (p >>= f) b = value (f (value p b)) b := rfl

@[simp] theorem value_read [Inhabited β] (i : ℕ) (b : List β) :
    value (read i) b = b.getD i default := rfl

@[simp] theorem value_buffer (b : List β) : value buffer b = b := rfl

theorem value_ite (P : Prop) [Decidable P] (p q : Probe β α) (b : List β) :
    value (if P then p else q) b = if P then value p b else value q b :=
  apply_ite (fun r : Probe β α => value r b) P p q

/-! ### Indices -/

@[simp] theorem within_pure (a : α) : Within n (pure a : Probe β α) b ↔ True :=
  iff_true_intro fun _ hi => absurd hi List.not_mem_nil

@[simp] theorem within_buffer : Within n (buffer : Probe β (List β)) b ↔ True :=
  iff_true_intro fun _ hi => absurd hi List.not_mem_nil

@[simp] theorem within_read [Inhabited β] (i : ℕ) : Within n (read i : Probe β β) b ↔ i < n := by
  simp [Within, reads, read]

@[simp] theorem within_bind (p : Probe β α) (f : α → Probe β γ) :
    Within n (p >>= f) b ↔ Within n p b ∧ Within n (f (value p b)) b :=
  List.forall_mem_append

theorem within_ite (P : Prop) [Decidable P] (p q : Probe β α) :
    Within n (if P then p else q) b ↔ (P → Within n p b) ∧ (¬ P → Within n q b) := by
  by_cases hP : P
  · simp [hP]
  · simp [hP]

end Probe
