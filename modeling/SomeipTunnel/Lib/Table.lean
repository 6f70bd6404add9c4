import Mathlib

/-!
# Nested tables

Tables are Mathlib's association lists `AList`. `put` sets or removes an entry, `filterMapKeys` and
`filterMap` rewrite or drop each entry (a sweep with erasure), `insertNew` and `insertAll` add entries
that are missing. A table of tables is kept free of empty inner tables by `prune`: an inner table that
has become empty is taken out instead of stored, and `inner` reads a missing one as empty.

`get₃`, `set₃` and `filterMap₃` are look-up, assignment and sweep through three levels.
`get₃_set₃` and `get₃_filterMap₃` say that they act on the entries as on a function of three
arguments, and `Pruned₃.set₃` and `Pruned₃.filterMap₃` that they leave no empty inner table.
-/

namespace Table

open List

/-! ### One level -/

section one

variable {κ ν : Type*}

/-- A table that is kept only if it has an entry. -/
def prune (t : AList fun _ : κ => ν) : Option (AList fun _ : κ => ν) :=
  if t.entries.isEmpty then none else some t

variable {t : AList fun _ : κ => ν} {a : κ}

theorem prune_eq_some {u : AList fun _ : κ => ν} (h : prune t = some u) :
    t = u ∧ u.entries ≠ [] := by
  unfold prune at h
  split_ifs at h with hempty
  cases h
  exact ⟨rfl, by simpa using hempty⟩

/-- Nothing is lost by leaving out an empty table. -/
@[simp] theorem getD_prune (t : AList fun _ : κ => ν) : (prune t).getD ∅ = t := by
  unfold prune
  split_ifs with h
  · exact (AList.ext (isEmpty_iff.mp h)).symm
  · rfl

/-- Rewrite each value, or drop its entry, by its key. -/
def filterMapKeys (f : κ → ν → Option ν) (t : AList fun _ : κ => ν) : AList fun _ : κ => ν where
  entries := t.entries.filterMap fun e => (f e.1 e.2).map (Sigma.mk e.1)
  nodupKeys := by
    have h := nodupKeys_iff_pairwise.mp t.nodupKeys
    rw [nodupKeys_iff_pairwise, pairwise_filterMap]
    refine h.imp fun {e e'} hne b hb b' hb' => ?_
    obtain ⟨v, -, rfl⟩ := Option.map_eq_some_iff.mp hb
    obtain ⟨v', -, rfl⟩ := Option.map_eq_some_iff.mp hb'
    exact hne

/-- Rewrite each value, or drop its entry. -/
def filterMap (f : ν → Option ν) (t : AList fun _ : κ => ν) : AList fun _ : κ => ν :=
  filterMapKeys (fun _ => f) t

/-- The entries as a loop over an ordered map meets them: by their keys. -/
def ordered [LE κ] [DecidableLE κ] (t : AList fun _ : κ => ν) : List (Σ _ : κ, ν) :=
  t.entries.insertionSort fun e e' => e.1 ≤ e'.1

theorem mem_ordered [LE κ] [DecidableLE κ] {e : Σ _ : κ, ν} :
    e ∈ ordered t ↔ e ∈ t.entries := mem_insertionSort _

variable [DecidableEq κ]

theorem lookup_filterMapKeys (f : κ → ν → Option ν) (t : AList fun _ : κ => ν) (a : κ) :
    (filterMapKeys f t).lookup a = (t.lookup a).bind (f a) := by
  rcases t with ⟨entries, hnd⟩
  simp only [AList.lookup, filterMapKeys]
  induction entries with
  | nil => simp
  | cons e entries ih =>
      obtain ⟨hnot, hnd⟩ := nodupKeys_cons.mp hnd
      have ih := ih hnd
      by_cases ha : a = e.1
      · obtain ⟨a', v⟩ := e
        obtain rfl : a = a' := ha
        rw [dlookup_cons_eq, Option.bind_some]
        rcases hf : f a v with _ | w
        · rw [filterMap_cons_none (by simp [hf]), ih, dlookup_eq_none.mpr hnot]
          rfl
        · rw [filterMap_cons_some (by simp [hf]; rfl), dlookup_cons_eq]
      · rw [dlookup_cons_ne _ _ ha, ← ih]
        rcases hf : f e.1 e.2 with _ | w
        · rw [filterMap_cons_none (by simp [hf])]
        · rw [filterMap_cons_some (by simp [hf]; rfl),
            dlookup_cons_ne _ (⟨e.1, w⟩ : Σ _ : κ, ν) ha]

theorem lookup_filterMap (f : ν → Option ν) (t : AList fun _ : κ => ν) (a : κ) :
    (filterMap f t).lookup a = (t.lookup a).bind f :=
  lookup_filterMapKeys _ t a

theorem prune_insert (t : AList fun _ : κ => ν) (a : κ) (v : ν) :
    prune (t.insert a v) = some (t.insert a v) := by
  simp [prune, AList.entries_insert]

/-- Set the entry of `a` or remove it. -/
def put (t : AList fun _ : κ => ν) (a : κ) : Option ν → AList fun _ : κ => ν
  | some v => t.insert a v
  | none => t.erase a

theorem lookup_put (t : AList fun _ : κ => ν) (a a' : κ) (o : Option ν) :
    (put t a o).lookup a' = if a' = a then o else t.lookup a' := by
  split_ifs with h
  · subst h
    cases o <;> simp [put]
  · cases o <;> simp [put, h]

theorem mem_of_lookup_eq_some {v : ν} (h : t.lookup a = some v) : a ∈ t := by
  rw [← AList.lookup_isSome, h]
  rfl

theorem length_insert_of_mem (h : a ∈ t) (v : ν) :
    (t.insert a v).entries.length = t.entries.length := by
  have hpos : 0 < t.keys.length := length_pos_of_mem h
  have hlen : (t.insert a v).keys.length = t.keys.length := by
    rw [AList.keys_insert, length_cons, length_erase_of_mem h]
    omega
  simpa [AList.keys, List.keys] using hlen

theorem length_insert_of_not_mem (h : a ∉ t) (v : ν) :
    (t.insert a v).entries.length = t.entries.length + 1 := by
  rw [AList.entries_insert_of_notMem h, length_cons]

theorem length_erase_of_mem (h : a ∈ t) : (t.erase a).entries.length + 1 = t.entries.length := by
  have hpos : 0 < t.keys.length := List.length_pos_of_mem h
  have hlen : (t.erase a).keys.length + 1 = t.keys.length := by
    rw [AList.keys_erase, List.length_erase_of_mem h]
    omega
  simpa [AList.keys, List.keys] using hlen

/-- Insert an entry unless there is one (`std::set` and `std::map`, `insert`). -/
def insertNew (t : AList fun _ : κ => ν) (a : κ) (v : ν) : AList fun _ : κ => ν :=
  if a ∈ t then t else t.insert a v

theorem lookup_insertNew (t : AList fun _ : κ => ν) (a a' : κ) (v : ν) :
    (insertNew t a v).lookup a' = (t.lookup a').or (if a' = a then some v else none) := by
  unfold insertNew
  by_cases ha : a' = a
  · subst ha
    rw [if_pos rfl]
    split_ifs with h
    · obtain ⟨w, hw⟩ := Option.isSome_iff_exists.mp (AList.lookup_isSome.mpr h)
      rw [hw, Option.some_or]
    · rw [AList.lookup_insert, AList.lookup_eq_none.mpr h, Option.none_or]
  · rw [if_neg ha, Option.or_none]
    split_ifs
    · rfl
    · rw [AList.lookup_insert_ne ha]

theorem mem_insertNew {a' : κ} {v : ν} : a' ∈ insertNew t a v ↔ a' = a ∨ a' ∈ t := by
  unfold insertNew
  split_ifs with h
  · refine ⟨.inr, ?_⟩
    rintro (rfl | h')
    · exact h
    · exact h'
  · exact AList.mem_insert _

/-- Insert all entries of a table for which there is none. -/
def insertAll (t u : AList fun _ : κ => ν) : AList fun _ : κ => ν :=
  u.entries.foldl (fun t e => insertNew t e.1 e.2) t

theorem mem_insertAll {u : AList fun _ : κ => ν} : a ∈ insertAll t u ↔ a ∈ t ∨ a ∈ u := by
  have hfold : ∀ (es : List (Σ _ : κ, ν)) (t : AList fun _ : κ => ν),
      a ∈ es.foldl (fun t e => insertNew t e.1 e.2) t ↔ a ∈ t ∨ a ∈ es.keys := by
    intro es
    induction es with
    | nil => simp
    | cons e es ih =>
        intro t
        rw [foldl_cons, ih, mem_insertNew, keys_cons, mem_cons]
        tauto
  exact hfold u.entries t

end one

/-! ### Tables of tables -/

section nested

variable {κ₁ κ₂ κ₃ ν : Type*} [DecidableEq κ₁]

/-- The inner table of `a`, empty if there is none. -/
def inner (t : AList fun _ : κ₁ => AList fun _ : κ₂ => ν) (a : κ₁) : AList fun _ : κ₂ => ν :=
  (t.lookup a).getD ∅

theorem inner_insert (t : AList fun _ : κ₁ => AList fun _ : κ₂ => ν) (a a' : κ₁)
    (u : AList fun _ : κ₂ => ν) : inner (t.insert a u) a' = if a' = a then u else inner t a' := by
  unfold inner
  split_ifs with h
  · rw [h, AList.lookup_insert, Option.getD_some]
  · rw [AList.lookup_insert_ne h]

theorem inner_put_prune (t : AList fun _ : κ₁ => AList fun _ : κ₂ => ν) (a a' : κ₁)
    (u : AList fun _ : κ₂ => ν) :
    inner (put t a (prune u)) a' = if a' = a then u else inner t a' := by
  simp only [inner, lookup_put]
  split_ifs with h
  · exact getD_prune u
  · rfl

theorem inner_filterMap_prune (f : AList (fun _ : κ₂ => ν) → AList (fun _ : κ₂ => ν))
    (hf : f ∅ = ∅) (t : AList fun _ : κ₁ => AList fun _ : κ₂ => ν) (a : κ₁) :
    inner (filterMap (fun u => prune (f u)) t) a = f (inner t a) := by
  simp only [inner, lookup_filterMap]
  rcases t.lookup a with _ | u
  · exact hf.symm
  · exact getD_prune (f u)

/-- Every inner table has an entry. -/
def Pruned (t : AList fun _ : κ₁ => AList fun _ : κ₂ => ν) : Prop :=
  ∀ a u, t.lookup a = some u → u.entries ≠ []

theorem Pruned.put {t : AList fun _ : κ₁ => AList fun _ : κ₂ => ν} (h : Pruned t) (a : κ₁)
    (u : AList fun _ : κ₂ => ν) : Pruned (put t a (prune u)) := by
  intro a' u' hu'
  rw [lookup_put] at hu'
  split_ifs at hu' with ha
  · exact (prune_eq_some hu').2
  · exact h a' u' hu'

theorem pruned_filterMap (f : AList (fun _ : κ₂ => ν) → AList (fun _ : κ₂ => ν))
    (t : AList fun _ : κ₁ => AList fun _ : κ₂ => ν) :
    Pruned (filterMap (fun u => prune (f u)) t) := by
  intro a u hu
  rw [lookup_filterMap] at hu
  obtain ⟨v, -, hv⟩ := Option.bind_eq_some_iff.mp hu
  exact (prune_eq_some hv).2

/-! ### Three levels -/

/-- Three levels of tables. -/
abbrev Table₃ (κ₁ κ₂ κ₃ ν : Type*) :=
  AList fun _ : κ₁ => AList fun _ : κ₂ => AList fun _ : κ₃ => ν

variable [DecidableEq κ₂]

/-- No inner table is empty. -/
def Pruned₃ (t : Table₃ κ₁ κ₂ κ₃ ν) : Prop := Pruned t ∧ ∀ a u, t.lookup a = some u → Pruned u

theorem Pruned₃.inner {t : Table₃ κ₁ κ₂ κ₃ ν} (h : Pruned₃ t) (a : κ₁) : Pruned (inner t a) := by
  unfold Table.inner
  rcases hu : t.lookup a with _ | u
  · intro b v hv
    simp at hv
  · exact h.2 a u hu

/-- Rewrite or drop each entry, together with what becomes empty. -/
def filterMap₃ (f : ν → Option ν) (t : Table₃ κ₁ κ₂ κ₃ ν) : Table₃ κ₁ κ₂ κ₃ ν :=
  filterMap (fun u => prune (filterMap (fun v => prune (filterMap f v)) u)) t

theorem Pruned₃.filterMap₃ (f : ν → Option ν) (t : Table₃ κ₁ κ₂ κ₃ ν) :
    Pruned₃ (filterMap₃ f t) := by
  refine ⟨pruned_filterMap _ t, fun a u hu => ?_⟩
  rw [Table.filterMap₃, lookup_filterMap] at hu
  obtain ⟨v, -, hv⟩ := Option.bind_eq_some_iff.mp hu
  rw [← (prune_eq_some hv).1]
  exact pruned_filterMap _ v

variable [DecidableEq κ₃]

/-- The entry of a triple of keys. -/
def get₃ (t : Table₃ κ₁ κ₂ κ₃ ν) (k : κ₁ × κ₂ × κ₃) : Option ν :=
  (inner (inner t k.1) k.2.1).lookup k.2.2

theorem get₃_eq_some_iff {t : Table₃ κ₁ κ₂ κ₃ ν} {a : κ₁} {b : κ₂} {c : κ₃} {v : ν} :
    get₃ t (a, b, c) = some v ↔
      ∃ u, t.lookup a = some u ∧ ∃ w, u.lookup b = some w ∧ w.lookup c = some v := by
  simp only [get₃, inner]
  rcases t.lookup a with _ | u
  · simp
  · rcases hw : u.lookup b with _ | w
    · simp [hw]
    · simp [hw]

/-- Set or remove the entry of a triple of keys, together with what becomes empty. -/
def set₃ (t : Table₃ κ₁ κ₂ κ₃ ν) (k : κ₁ × κ₂ × κ₃) (o : Option ν) : Table₃ κ₁ κ₂ κ₃ ν :=
  put t k.1 (prune (put (inner t k.1) k.2.1 (prune (put (inner (inner t k.1) k.2.1) k.2.2 o))))

theorem set₃_some (t : Table₃ κ₁ κ₂ κ₃ ν) (a : κ₁) (b : κ₂) (c : κ₃) (v : ν) :
    set₃ t (a, b, c) (some v) =
      t.insert a ((inner t a).insert b ((inner (inner t a) b).insert c v)) := by
  simp only [set₃, put, prune_insert]

/-- A removal, level by level. -/
theorem set₃_none (t : Table₃ κ₁ κ₂ κ₃ ν) (a : κ₁) (b : κ₂) (c : κ₃) : set₃ t (a, b, c) none =
      if ((inner (inner t a) b).erase c).entries.isEmpty then
        if ((inner t a).erase b).entries.isEmpty then t.erase a
        else t.insert a ((inner t a).erase b)
      else t.insert a ((inner t a).insert b ((inner (inner t a) b).erase c)) := by
  simp only [set₃]
  by_cases h₁ : ((inner (inner t a) b).erase c).entries.isEmpty = true
  · by_cases h₂ : ((inner t a).erase b).entries.isEmpty = true
    · simp only [put, prune, h₁, h₂, if_true]
    · simp only [put, prune, h₁, h₂, if_true, if_false, Bool.false_eq_true]
  · have hprune : prune ((inner (inner t a) b).erase c) = some ((inner (inner t a) b).erase c) :=
      if_neg h₁
    simp only [put, hprune, prune_insert, h₁, if_false, Bool.false_eq_true]

/-- An assignment acts on the entries as on a function. -/
theorem get₃_set₃ (t : Table₃ κ₁ κ₂ κ₃ ν) (k k' : κ₁ × κ₂ × κ₃) (o : Option ν) :
    get₃ (set₃ t k o) k' = if k' = k then o else get₃ t k' := by
  obtain ⟨a, b, c⟩ := k
  obtain ⟨a', b', c'⟩ := k'
  simp only [get₃, set₃, inner_put_prune, Prod.mk.injEq]
  by_cases ha : a' = a
  · subst ha
    simp only [if_true, inner_put_prune, true_and]
    by_cases hb : b' = b
    · subst hb
      simp only [if_true, lookup_put, true_and]
    · simp only [hb, if_false, false_and]
  · simp only [ha, if_false, false_and]

/-- A sweep acts on the entries as on a function. -/
theorem get₃_filterMap₃ (f : ν → Option ν) (t : Table₃ κ₁ κ₂ κ₃ ν) (k : κ₁ × κ₂ × κ₃) :
    get₃ (filterMap₃ f t) k = (get₃ t k).bind f := by
  simp only [get₃, filterMap₃]
  rw [inner_filterMap_prune _ rfl, inner_filterMap_prune _ rfl, lookup_filterMap]

theorem Pruned₃.set₃ {t : Table₃ κ₁ κ₂ κ₃ ν} (h : Pruned₃ t) (k : κ₁ × κ₂ × κ₃) (o : Option ν) :
    Pruned₃ (set₃ t k o) := by
  refine ⟨h.1.put _ _, fun a u hu => ?_⟩
  rw [Table.set₃, lookup_put] at hu
  split_ifs at hu with ha
  · rw [← (prune_eq_some hu).1]
    exact (h.inner k.1).put _ _
  · exact h.2 a u hu

end nested

end Table
