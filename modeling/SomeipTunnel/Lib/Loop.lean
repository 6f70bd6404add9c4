import Mathlib.Data.List.Basic

/-!
# Loops

* A loop over a list that adds to a collection: `Loop.foldl_collects` says what it collects.
* Assignments one after the other (`assignAll`): the last one for a key counts, and what was there
  before counts for a key without one.
-/

namespace Loop

/-- A loop that adds to a collection: something is in the result iff it was there or some pass adds
it. -/
theorem foldl_collects {α β : Type*} {f : α → β → α} {P : α → Prop} {Q : β → Prop} {l : List β}
    (h : ∀ a, ∀ b ∈ l, P (f a b) ↔ P a ∨ Q b) (a : α) : P (l.foldl f a) ↔ P a ∨ ∃ b ∈ l, Q b := by
  induction l generalizing a with
  | nil => simp
  | cons b l ih =>
      rw [List.foldl_cons, ih (fun a c hc => h a c (List.mem_cons_of_mem _ hc)),
        h a b List.mem_cons_self, List.exists_mem_cons_iff, or_assoc]

variable {κ ν : Type*} [DecidableEq κ] {m m' : κ → ν} {ws ws' : List (κ × ν)} {k : κ}

/-- Assignments one after the other. -/
def assignAll (m : κ → ν) (ws : List (κ × ν)) : κ → ν :=
  ws.foldl (fun m w => Function.update m w.1 w.2) m

@[simp] theorem assignAll_nil : assignAll m [] = m := rfl

theorem assignAll_cons {w : κ × ν} :
    assignAll m (w :: ws) = assignAll (Function.update m w.1 w.2) ws := rfl

theorem assignAll_append : assignAll m (ws ++ ws') = assignAll (assignAll m ws) ws' :=
  List.foldl_append

/-- What was there before counts at most at its own key. -/
theorem assignAll_congr (h : m k = m' k) : assignAll m ws k = assignAll m' ws k := by
  induction ws generalizing m m' with
  | nil => exact h
  | cons w ws ih =>
      rw [assignAll_cons, assignAll_cons]
      apply ih
      by_cases hk : k = w.1
      · rw [hk, Function.update_self, Function.update_self]
      · rw [Function.update_of_ne hk, Function.update_of_ne hk, h]

theorem assignAll_of_not_mem (h : ∀ w ∈ ws, w.1 ≠ k) : assignAll m ws k = m k := by
  induction ws generalizing m with
  | nil => rfl
  | cons w ws ih =>
      rw [assignAll_cons, ih fun w' hw' => h w' (List.mem_cons_of_mem _ hw')]
      exact Function.update_of_ne (h w List.mem_cons_self).symm _ _

/-- Behind an assignment to the key nothing of what was there before counts. -/
theorem assignAll_eq_of_mem (h : ∃ w ∈ ws, w.1 = k) : assignAll m ws k = assignAll m' ws k := by
  obtain ⟨w, hw, rfl⟩ := h
  obtain ⟨before, after, rfl⟩ := List.append_of_mem hw
  rw [assignAll_append, assignAll_append, assignAll_cons, assignAll_cons]
  apply assignAll_congr
  rw [Function.update_self, Function.update_self]

end Loop
