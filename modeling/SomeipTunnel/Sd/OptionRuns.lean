import SomeipTunnel.Sd.EntryCodec

/-!
# The runs of an entry

`assign_option` puts an option into the first run if its index lies next to it, else into the second,
and a run that is empty takes any index. An index with no neighbour among those before it thus opens
a run, and the third one that does so is dropped, even where a later index would have joined two of
the runs. So all options are assigned iff at most two of them come before their neighbours
(`runs_complete_iff`), whatever their set is.
-/

namespace SomeipTunnel.Sd

open List Entry

/-- An entry with the numbers of its runs.
Source: `entry_impl.hpp`, `num_options_` -/
structure Counted where
  entry : Entry
  numOptions1 : UInt8
  numOptions2 : UInt8

namespace Counted

/-- Source: `entry_impl::assign_option`, for an option that is found at the index -/
def assign (c : Counted) (itsIndex : ℕ) : Counted where
  entry := (c.entry.assignOption (some itsIndex)).2
  numOptions1 :=
    if itsIndex < 256 ∧ adjoins c.entry.run1 itsIndex then c.numOptions1 + 1
    else c.numOptions1
  numOptions2 :=
    if itsIndex < 256 ∧ ¬ adjoins c.entry.run1 itsIndex ∧
        adjoins c.entry.run2 itsIndex then c.numOptions2 + 1
    else c.numOptions2

/-- A new entry. -/
def start (e : Entry) : Counted := ⟨{ e with run1 := [], run2 := [] }, 0, 0⟩

/-- The indices of both runs. -/
def indices (c : Counted) : List ℕ := c.entry.run1 ++ c.entry.run2

/-- Every given option is in one of the runs and there once, the runs have numbers one after the
other, and the numbers are their sizes. -/
structure Complete (order : List ℕ) (c : Counted) : Prop where
  once : ∀ i ∈ order, c.indices.count i = 1
  run1 : IsRun c.entry.run1
  run2 : IsRun c.entry.run2
  number1 : c.numOptions1.toNat = c.entry.run1.length
  number2 : c.numOptions2.toNat = c.entry.run2.length

end Counted

/-- There is a neighbour of the index. -/
def Joins (seen : List ℕ) (i : ℕ) : Prop := ∃ j ∈ seen, j + 1 = i ∨ i + 1 = j

instance (seen : List ℕ) (i : ℕ) : Decidable (Joins seen i) := by
  unfold Joins
  infer_instance

/-- The number of indices that come before their neighbours. -/
def openers : List ℕ → List ℕ → ℕ
  | _, [] => 0
  | seen, i :: order => (if Joins seen i then 0 else 1) + openers (i :: seen) order

/-- The indices of at most two ranges of at most fifteen, in any order. -/
structure TwoRanges (order : List ℕ) : Prop where
  nodup : order.Nodup
  below : ∀ i ∈ order, i < 256
  ranges : ∃ first₁ size₁ first₂ size₂, size₁ ≤ 15 ∧ size₂ ≤ 15 ∧
    ∀ i, i ∈ order ↔ i ∈ List.range' first₁ size₁ ∨ i ∈ List.range' first₂ size₂

theorem TwoRanges.length_le {order : List ℕ} (h : TwoRanges order) : order.length ≤ 30 := by
  obtain ⟨first₁, size₁, first₂, size₂, h₁, h₂, hmem⟩ := h.ranges
  have hsubset : order ⊆ List.range' first₁ size₁ ++ List.range' first₂ size₂ := fun i hi =>
    mem_append.mpr ((hmem i).mp hi)
  have := (subperm_of_subset h.nodup hsubset).length_le
  rw [length_append, length_range', length_range'] at this
  omega

/-! ### One option -/

/-- An index outside a run lies next to it iff it is a neighbour of one of its indices. -/
theorem adjoins_iff {run : List ℕ} {i : ℕ} (h : IsRun run) (hne : run ≠ []) (hi : i ∉ run) :
    adjoins run i = true ↔ Joins run i := by
  obtain ⟨first, hrun⟩ := h
  obtain ⟨number, hnumber⟩ : ∃ number, run.length = number + 1 :=
    Nat.exists_eq_succ_of_ne_zero fun hzero => hne (List.length_eq_zero_iff.mp hzero)
  rw [hnumber] at hrun
  subst hrun
  have hlast : (List.range' first (number + 1)).getLast? = some (first + number) := by
    simp [List.getLast?_range']
  rw [List.mem_range'_1] at hi
  simp only [adjoins, Bool.or_eq_true, List.isEmpty_iff, hne, false_or, beq_iff_eq, hlast,
    Option.map_some, Option.some.injEq, Joins, List.mem_range'_1]
  constructor
  · rintro (hhead | hend)
    · exact ⟨first, by omega, .inr (Option.some.inj hhead).symm⟩
    · exact ⟨first + number, by omega, .inl hend⟩
  · rintro ⟨j, hj, hji | hji⟩
    · exact .inr (by omega)
    · refine .inl (congrArg some ?_)
      omega

namespace Counted

/-- What holds while every option was assigned: the runs have the indices seen so far, and `opened`
of them are not empty. -/
structure Inv (seen : List ℕ) (opened : ℕ) (c : Counted) : Prop where
  isRun1 : IsRun c.entry.run1
  isRun2 : IsRun c.entry.run2
  nodup : c.indices.Nodup
  mem : ∀ i, i ∈ c.indices ↔ i ∈ seen
  number1 : c.numOptions1 = UInt8.ofNat c.entry.run1.length
  number2 : c.numOptions2 = UInt8.ofNat c.entry.run2.length
  opened : opened = (if c.entry.run1 = [] then 0 else 1) + if c.entry.run2 = [] then 0 else 1
  first : c.entry.run1 = [] → c.entry.run2 = []

theorem inv_start (e : Entry) : Inv [] 0 (start e) where
  isRun1 := isRun_nil
  isRun2 := isRun_nil
  nodup := nodup_nil
  mem _ := Iff.rfl
  number1 := rfl
  number2 := rfl
  opened := rfl
  first _ := rfl

/-- An index that is assigned. -/
theorem mem_indices_assign {c : Counted} {i j : ℕ} (h : j ∈ (c.assign i).indices) :
    j ∈ c.indices ∨ j = i := by
  unfold assign assignOption indices at h
  unfold indices
  dsimp only at h
  split_ifs at h <;> simp only [mem_append, mem_push] at h ⊢ <;> tauto

theorem mem_indices_foldl {order : List ℕ} {c : Counted} {j : ℕ}
    (h : j ∈ (order.foldl assign c).indices) : j ∈ c.indices ∨ j ∈ order := by
  induction order generalizing c with
  | nil => exact .inl h
  | cons i order ih =>
      rcases ih h with h | h
      · refine (mem_indices_assign h).imp_right fun hj => ?_
        rw [hj]
        exact mem_cons_self
      · exact .inr (mem_cons_of_mem _ h)

theorem ofNat_length_push (run : List ℕ) (i : ℕ) :
    UInt8.ofNat run.length + 1 = UInt8.ofNat (push run i).length := by
  rw [(perm_push run i).length_eq, length_append, length_singleton, UInt8.ofNat_add]
  rfl

theorem push_ne_nil (run : List ℕ) (i : ℕ) : push run i ≠ [] :=
  ne_nil_of_mem (mem_push.mpr (.inr rfl))

variable {seen : List ℕ} {opened i : ℕ} {c : Counted}

/-- An index that goes to the first run. -/
theorem Inv.push1 (h : Inv seen opened c) (hlt : i < 256) (hi : i ∉ seen)
    (hadjoins : adjoins c.entry.run1 i = true) :
    Inv (i :: seen) (opened + if c.entry.run1 = [] then 1 else 0) (c.assign i) := by
  have hassign : (c.entry.assignOption (some i)).2 =
      { c.entry with run1 := push c.entry.run1 i } := by
    simp only [assignOption, hlt, hadjoins, if_true]
  have hperm : (c.assign i).indices.Perm (i :: c.indices) := by
    simp only [indices, assign, hassign]
    refine ((perm_push _ i).append_right _).trans ?_
    rw [append_assoc]
    exact perm_middle
  refine ⟨?_, ?_, ?_, fun j => ?_, ?_, ?_, ?_, ?_⟩
  · simpa only [assign, hassign] using h.isRun1.push hadjoins
  · simpa only [assign, hassign] using h.isRun2
  · exact hperm.nodup_iff.mpr (nodup_cons.mpr ⟨fun hmem => hi ((h.mem i).mp hmem), h.nodup⟩)
  · rw [hperm.mem_iff, mem_cons, mem_cons, h.mem]
  · simp only [assign, hassign, hlt, hadjoins, and_self, if_true, h.number1]
    exact ofNat_length_push _ _
  · simp only [assign, hassign, hadjoins, not_true_eq_false, false_and, and_false, if_false,
      h.number2]
  · simp only [assign, hassign, push_ne_nil, if_false]
    rw [h.opened]
    split_ifs <;> rfl
  · intro hnil
    simp only [assign, hassign] at hnil
    exact absurd hnil (push_ne_nil _ _)

/-- An index that goes to the second run. -/
theorem Inv.push2 (h : Inv seen opened c) (hlt : i < 256) (hi : i ∉ seen)
    (hnot : adjoins c.entry.run1 i = false) (hadjoins : adjoins c.entry.run2 i = true) :
    Inv (i :: seen) (opened + if c.entry.run2 = [] then 1 else 0) (c.assign i) := by
  have hassign : (c.entry.assignOption (some i)).2 =
      { c.entry with run2 := push c.entry.run2 i } := by
    simp only [assignOption, hlt, hnot, hadjoins, if_true, Bool.false_eq_true, if_false]
  have hne : c.entry.run1 ≠ [] := by
    intro hnil
    rw [hnil] at hnot
    cases hnot
  have hperm : (c.assign i).indices.Perm (i :: c.indices) := by
    simp only [indices, assign, hassign]
    refine ((perm_push _ i).append_left _).trans ?_
    rw [← append_assoc]
    exact perm_append_singleton _ _
  refine ⟨?_, ?_, ?_, fun j => ?_, ?_, ?_, ?_, ?_⟩
  · simpa only [assign, hassign] using h.isRun1
  · simpa only [assign, hassign] using h.isRun2.push hadjoins
  · exact hperm.nodup_iff.mpr (nodup_cons.mpr ⟨fun hmem => hi ((h.mem i).mp hmem), h.nodup⟩)
  · rw [hperm.mem_iff, mem_cons, mem_cons, h.mem]
  · simp only [assign, hassign, hnot, Bool.false_eq_true, and_false, if_false, h.number1]
  · simp only [assign, hassign, hlt, hnot, hadjoins, Bool.false_eq_true, not_false_eq_true,
      and_self, if_true, h.number2]
    exact ofNat_length_push _ _
  · simp only [assign, hassign, push_ne_nil, hne, if_false]
    rw [h.opened, if_neg hne]
    split_ifs <;> rfl
  · intro hnil
    simp only [assign, hassign] at hnil
    exact absurd hnil hne

/-- **One option** is assigned if it has a neighbour or a run is empty, and else dropped. -/
theorem Inv.assign (h : Inv seen opened c) (hlt : i < 256) (hi : i ∉ seen) :
    (Joins seen i ∨ opened < 2 →
      Inv (i :: seen) (opened + if Joins seen i then 0 else 1) (c.assign i)) ∧
    (¬ Joins seen i → 2 ≤ opened → c.assign i = c) := by
  have hi1 : i ∉ c.entry.run1 := fun hmem => hi ((h.mem i).mp (mem_append_left _ hmem))
  have hi2 : i ∉ c.entry.run2 := fun hmem => hi ((h.mem i).mp (mem_append_right _ hmem))
  have hjoins : Joins seen i ↔ Joins c.entry.run1 i ∨ Joins c.entry.run2 i := by
    simp only [Joins, ← h.mem, indices, mem_append, or_and_right, exists_or]
  have hopened := h.opened
  by_cases hnil1 : c.entry.run1 = []
  · -- the first option of all
    have hnil2 := h.first hnil1
    have hno : ¬ Joins seen i := by
      rw [hjoins, hnil1, hnil2]
      simp [Joins]
    have hpush := h.push1 hlt hi (by rw [hnil1]; rfl)
    rw [if_pos hnil1] at hpush
    rw [if_neg hno]
    rw [if_pos hnil1, if_pos hnil2] at hopened
    exact ⟨fun _ => hpush, fun _ hfull => by omega⟩
  rw [if_neg hnil1] at hopened
  by_cases hjoins1 : Joins c.entry.run1 i
  · have hpush := h.push1 hlt hi ((adjoins_iff h.isRun1 hnil1 hi1).mpr hjoins1)
    rw [if_neg hnil1] at hpush
    have hyes : Joins seen i := hjoins.mpr (.inl hjoins1)
    rw [if_pos hyes]
    exact ⟨fun _ => hpush, fun hno => absurd hyes hno⟩
  have hnot : adjoins c.entry.run1 i = false :=
    Bool.eq_false_iff.mpr fun hadjoins => hjoins1 ((adjoins_iff h.isRun1 hnil1 hi1).mp hadjoins)
  by_cases hnil2 : c.entry.run2 = []
  · have hno : ¬ Joins seen i := by
      rw [hjoins, hnil2]
      simpa [Joins] using hjoins1
    have hpush := h.push2 hlt hi hnot (by rw [hnil2]; rfl)
    rw [if_pos hnil2] at hpush hopened
    rw [if_neg hno]
    exact ⟨fun _ => hpush, fun _ hfull => by omega⟩
  rw [if_neg hnil2] at hopened
  by_cases hjoins2 : Joins c.entry.run2 i
  · have hpush := h.push2 hlt hi hnot ((adjoins_iff h.isRun2 hnil2 hi2).mpr hjoins2)
    rw [if_neg hnil2] at hpush
    have hyes : Joins seen i := hjoins.mpr (.inr hjoins2)
    rw [if_pos hyes]
    exact ⟨fun _ => hpush, fun hno => absurd hyes hno⟩
  -- both runs are open, and the index lies next to neither
  have hnot2 : adjoins c.entry.run2 i = false :=
    Bool.eq_false_iff.mpr fun hadjoins => hjoins2 ((adjoins_iff h.isRun2 hnil2 hi2).mp hadjoins)
  have hno : ¬ Joins seen i := fun hyes => (hjoins.mp hyes).elim hjoins1 hjoins2
  refine ⟨fun hroom => ?_, fun _ _ => ?_⟩
  · have := hroom.resolve_left hno
    omega
  unfold Counted.assign assignOption
  simp only [hnot, hnot2, Bool.false_eq_true, if_false, and_false, if_true, hlt]

/-! ### All options -/

theorem Inv.complete (h : Inv seen opened c) (hlength : seen.length < 256) (hnodup : seen.Nodup) :
    Complete seen c := by
  have hperm : c.indices.Perm seen := (perm_ext_iff_of_nodup h.nodup hnodup).mpr h.mem
  have hsize := hperm.length_eq
  rw [indices, length_append] at hsize
  refine ⟨fun i hi => ?_, h.isRun1, h.isRun2, ?_, ?_⟩
  · exact count_eq_one_of_mem h.nodup ((h.mem i).mpr hi)
  · rw [h.number1]
    exact UInt8.toNat_ofNat_of_lt' (by omega : c.entry.run1.length < 256)
  · rw [h.number2]
    exact UInt8.toNat_ofNat_of_lt' (by omega : c.entry.run2.length < 256)

/-- **Any number of options** from a state in which every one so far was assigned. -/
theorem Inv.complete_iff {order : List ℕ} (h : Inv seen opened c)
    (hopened : opened ≤ 2) (hnodup : (order.reverse ++ seen).Nodup)
    (hlength : (order.reverse ++ seen).length < 256) (hbelow : ∀ i ∈ order, i < 256) :
    Complete (order.reverse ++ seen) (order.foldl Counted.assign c) ↔
      opened + openers seen order ≤ 2 := by
  induction order generalizing seen opened c with
  | nil => exact ⟨fun _ => hopened, fun _ => h.complete hlength hnodup⟩
  | cons i order ih =>
      rw [reverse_cons, append_assoc, singleton_append] at hnodup hlength ⊢
      obtain ⟨hlt, hbelow⟩ := forall_mem_cons.mp hbelow
      have hi : i ∉ seen := (nodup_cons.mp (nodup_append.mp hnodup).2.1).1
      obtain ⟨hassign, hdrop⟩ := h.assign hlt hi
      by_cases hroom : Joins seen i ∨ opened < 2
      · have hnext : opened + (if Joins seen i then 0 else 1) ≤ 2 := by
          split_ifs with hjoins
          · exact hopened
          · have := hroom.resolve_left hjoins
            omega
        rw [foldl_cons, ih (hassign hroom) hnext hnodup hlength hbelow, openers]
        omega
      · obtain ⟨hjoins, hfull⟩ := not_or.mp hroom
        rw [openers, if_neg hjoins]
        have hfull := Nat.le_of_not_lt hfull
        refine ⟨fun hcomplete => ?_, fun hle => by omega⟩
        -- the index is not in the runs, and does not come again
        have hcount := hcomplete.once i (mem_append_right _ mem_cons_self)
        rw [foldl_cons, hdrop hjoins hfull] at hcount
        have hmem := count_pos_iff.mp (hcount.symm ▸ Nat.one_pos)
        rcases mem_indices_foldl hmem with hmem | hmem
        · exact absurd ((h.mem i).mp hmem) hi
        · exact absurd rfl ((nodup_append.mp hnodup).2.2 i (mem_reverse.mpr hmem) i
            mem_cons_self)

end Counted

/-- **All options are assigned** iff at most two of them come before their neighbours. -/
theorem runs_complete_iff (e : Entry) {order : List ℕ} (h : TwoRanges order) :
    (order.foldl Counted.assign (.start e)).Complete order ↔ openers [] order ≤ 2 := by
  have hlength := h.length_le
  have hiff := (Counted.inv_start e).complete_iff (Nat.zero_le _)
    (by simpa using h.nodup) (by simp; omega) h.below
  rw [append_nil, Nat.zero_add] at hiff
  rw [← hiff]
  exact ⟨fun hc => ⟨fun i hi => hc.once i (mem_reverse.mp hi), hc.run1, hc.run2, hc.number1,
    hc.number2⟩, fun hc => ⟨fun i hi => hc.once i (mem_reverse.mpr hi), hc.run1, hc.run2,
    hc.number1, hc.number2⟩⟩

/-- An offer without options. -/
def bareOffer : Entry := ⟨.offerService, 0x1111, 1, 1, 3, .service 0, [], []⟩

theorem twoRanges_of_five {order : List ℕ} (h : order.Perm (List.range 5)) : TwoRanges order where
  nodup := h.nodup_iff.mpr nodup_range
  below i hi := by
    have := mem_range.mp (h.mem_iff.mp hi)
    omega
  ranges := ⟨0, 5, 0, 0, by decide, by decide, fun i => by
    rw [h.mem_iff, mem_range, mem_range'_1, mem_range'_1]
    omega⟩

theorem runs_complete_iff_ascending : TwoRanges [0, 1, 2, 3, 4] ∧
      ([0, 1, 2, 3, 4].foldl Counted.assign (.start bareOffer)).Complete [0, 1, 2, 3, 4] :=
  ⟨twoRanges_of_five (List.Perm.refl _),
    (runs_complete_iff bareOffer (twoRanges_of_five (List.Perm.refl _))).mpr (by decide)⟩

/-- **Five options in a row** that come as 0, 2, 4, 1, 3: there is no run for 4. -/
theorem third_run_dropped : TwoRanges [0, 2, 4, 1, 3] ∧
      ¬ ([0, 2, 4, 1, 3].foldl Counted.assign (.start bareOffer)).Complete [0, 2, 4, 1, 3] := by
  refine ⟨twoRanges_of_five (by decide), fun hcomplete => ?_⟩
  have hcount := hcomplete.once 4 (by decide)
  exact absurd hcount (by decide)

end SomeipTunnel.Sd
