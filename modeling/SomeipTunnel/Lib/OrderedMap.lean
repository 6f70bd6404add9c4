import Mathlib

/-!
# Maps with ordered keys

A map as a loop over it sees it: the list of its entries with the keys in strict order (C++
`std::map`). The order is a field, so that two maps with the same entries are equal.
-/

/-- A map with ordered keys. -/
@[ext]
structure OrderedMap (K V : Type*) [LinearOrder K] where
  entries : List (K × V)
  sorted : entries.Pairwise fun e e' => e.1 < e'.1

namespace OrderedMap

open List

variable {K V : Type*} [LinearOrder K]

instance [DecidableEq V] : DecidableEq (OrderedMap K V) := fun m m' =>
  decidable_of_iff (m.entries = m'.entries) OrderedMap.ext_iff.symm

/-- The map without entries. -/
def empty : OrderedMap K V := ⟨[], List.Pairwise.nil⟩

/-- The key has an entry. -/
def Contains (m : OrderedMap K V) (k : K) : Prop := ∃ e ∈ m.entries, e.1 = k

instance (m : OrderedMap K V) (k : K) : Decidable (m.Contains k) :=
  inferInstanceAs (Decidable (∃ e ∈ m.entries, e.1 = k))

/-- Set the entry of a key, at the place of the key. -/
def assign (m : OrderedMap K V) (k : K) (v : V) : OrderedMap K V where
  entries := m.entries.filter (·.1 < k) ++ (k, v) :: m.entries.filter (k < ·.1)
  sorted := by
    rw [pairwise_append, pairwise_cons]
    refine ⟨m.sorted.filter _, ⟨?_, m.sorted.filter _⟩, ?_⟩
    · intro e he
      simpa using (mem_filter.mp he).2
    · intro e he e' he'
      have hlt : e.1 < k := by simpa using (mem_filter.mp he).2
      rcases mem_cons.mp he' with rfl | he'
      · exact hlt
      · exact hlt.trans (by simpa using (mem_filter.mp he').2)

variable {m : OrderedMap K V} {k : K} {v : V}

theorem mem_assign {e : K × V} :
    e ∈ (m.assign k v).entries ↔ e = (k, v) ∨ e ∈ m.entries ∧ e.1 ≠ k := by
  unfold assign
  rw [mem_append, mem_cons, mem_filter, mem_filter]
  simp only [decide_eq_true_eq, ne_iff_lt_or_gt]
  tauto

/-- An assignment only adds an entry iff the key has no other one. -/
theorem assign_adds_iff : (∀ e, e ∈ (m.assign k v).entries ↔ e = (k, v) ∨ e ∈ m.entries) ↔
      ∀ w, (k, w) ∈ m.entries → w = v := by
  constructor
  · intro h w hw
    rcases mem_assign.mp ((h (k, w)).mpr (Or.inr hw)) with heq | ⟨-, hne⟩
    · exact (Prod.mk.inj heq).2
    · exact absurd rfl hne
  · rintro h ⟨k', w⟩
    rw [mem_assign]
    refine or_congr_right' fun hne => and_iff_left_of_imp ?_
    rintro hw rfl
    exact hne (by rw [h w hw])

/-- Remove the entry of a key. -/
def erase (m : OrderedMap K V) (k : K) : OrderedMap K V where
  entries := m.entries.filter (·.1 ≠ k)
  sorted := m.sorted.filter _

theorem mem_erase {e : K × V} : e ∈ (m.erase k).entries ↔ e ∈ m.entries ∧ e.1 ≠ k := by
  simp [erase]

/-- Add an entry at the place of its key, unless the key has one. -/
def emplace (m : OrderedMap K V) (k : K) (v : V) : OrderedMap K V :=
  if m.Contains k then m else m.assign k v

theorem contains_emplace {k' : K} : (m.emplace k v).Contains k' ↔ k' = k ∨ m.Contains k' := by
  unfold emplace
  split_ifs with hk
  · exact ⟨Or.inr, fun h => h.elim (fun heq => heq ▸ hk) id⟩
  · constructor
    · rintro ⟨e, he, rfl⟩
      rcases mem_assign.mp he with rfl | ⟨he, -⟩
      · exact Or.inl rfl
      · exact Or.inr ⟨e, he, rfl⟩
    · rintro (rfl | ⟨e, he, rfl⟩)
      · exact ⟨(k', v), mem_assign.mpr (Or.inl rfl), rfl⟩
      · exact ⟨e, mem_assign.mpr (Or.inr ⟨he, fun heq => hk ⟨e, he, heq⟩⟩), rfl⟩

theorem not_contains_of_lt (h : ∀ e ∈ m.entries, e.1 < k) : ¬ m.Contains k := by
  rintro ⟨e, he, rfl⟩
  exact lt_irrefl _ (h e he)

/-- An entry with a higher key than all goes to the end. -/
theorem assign_of_lt (h : ∀ e ∈ m.entries, e.1 < k) (v : V) :
    (m.assign k v).entries = m.entries ++ [(k, v)] := by
  have hbelow : m.entries.filter (·.1 < k) = m.entries := by
    rw [filter_eq_self]
    intro e he
    simpa using h e he
  have habove : m.entries.filter (k < ·.1) = [] := by
    rw [filter_eq_nil_iff]
    intro e he
    simpa using (h e he).le
  unfold assign
  dsimp only
  rw [hbelow, habove]

theorem emplace_of_lt (h : ∀ e ∈ m.entries, e.1 < k) (v : V) :
    (m.emplace k v).entries = m.entries ++ [(k, v)] := by
  rw [emplace, if_neg (not_contains_of_lt h), assign_of_lt h]

end OrderedMap
