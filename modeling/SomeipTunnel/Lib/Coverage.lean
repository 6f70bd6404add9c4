import Mathlib.Order.Interval.Finset.Nat

/-!
# Ordered interval lists and first-arrival contents

Two views of a byte range that is received in pieces.

* **The bookkeeping view.** A list of closed intervals `[lo y, hi y]` (an entry with
  `hi y + 1 = lo y` is empty), `Ordered` when each entry ends before the next one starts.
  `offsets` is the set of offsets the entries cover, `stop` the offset behind the last entry, and
  `ContiguousFrom n` the scan that checks that each entry starts where the one before it stops.
  `Ordered.insert` and `offsets_insert` say what filling a gap does, and
  `Ordered.offsets_of_contiguousFrom` and its converse that the scan succeeds exactly on an
  initial range.
* **The arrival view.** A list of `Piece`s in the order of their arrival; `firstAt A p` is what the
  first piece that covers `p` carries for `p`.
-/

namespace Coverage

open List

section intervals

variable {ι : Type*} (lo hi : ι → ℕ)

/-- Each entry ends before the next one starts; an entry may be empty, but not inverted further. -/
structure Ordered (S : List ι) : Prop where
  bounds : ∀ y ∈ S, lo y ≤ hi y + 1
  chain : S.Pairwise fun a b => hi a < lo b

/-- The offsets that the entries cover. -/
def offsets (S : List ι) : Finset ℕ := S.foldr (fun y F => Finset.Icc (lo y) (hi y) ∪ F) ∅

/-- The offset behind the last entry, `n` if there is none. -/
def stop (n : ℕ) (S : List ι) : ℕ := (S.getLast?.map fun y => hi y + 1).getD n

/-- Each entry starts where the one before it stops, the first one at `n`. -/
def ContiguousFrom : ℕ → List ι → Prop
  | _, [] => True
  | n, y :: S => lo y = n ∧ ContiguousFrom (hi y + 1) S

variable {lo hi} {S pre post : List ι} {x y : ι} {n p : ℕ}

@[simp] theorem offsets_nil : offsets lo hi [] = ∅ := rfl

@[simp] theorem offsets_cons :
    offsets lo hi (y :: S) = Finset.Icc (lo y) (hi y) ∪ offsets lo hi S := rfl

theorem mem_offsets : p ∈ offsets lo hi S ↔ ∃ y ∈ S, lo y ≤ p ∧ p ≤ hi y := by
  induction S with
  | nil => simp
  | cons y S ih => simp [ih]

/-- Filling in `x` adds exactly the offsets of `x`. -/
theorem offsets_insert :
    offsets lo hi (pre ++ x :: post) = offsets lo hi (pre ++ post) ∪ Finset.Icc (lo x) (hi x) := by
  ext p
  simp only [mem_offsets, Finset.mem_union, Finset.mem_Icc, mem_append, mem_cons]
  constructor
  · rintro ⟨y, hy | rfl | hy, hp⟩
    · exact Or.inl ⟨y, Or.inl hy, hp⟩
    · exact Or.inr hp
    · exact Or.inl ⟨y, Or.inr hy, hp⟩
  · rintro (⟨y, hy | hy, hp⟩ | hp)
    · exact ⟨y, Or.inl hy, hp⟩
    · exact ⟨y, Or.inr (Or.inr hy), hp⟩
    · exact ⟨x, Or.inr (Or.inl rfl), hp⟩

/-- An ordered list stays ordered when an entry is put into a gap that has room for it. -/
theorem Ordered.insert (h : Ordered lo hi (pre ++ post)) (hx : lo x ≤ hi x + 1)
    (hp : ∀ y ∈ pre, hi y < lo x) (hn : ∀ y ∈ post, hi x < lo y) :
    Ordered lo hi (pre ++ x :: post) := by
  refine ⟨fun y hy => ?_, ?_⟩
  · simp only [mem_append, mem_cons] at hy
    rcases hy with hy | rfl | hy
    · exact h.bounds y (mem_append_left _ hy)
    · exact hx
    · exact h.bounds y (mem_append_right _ hy)
  · obtain ⟨hpre, hpost, hcross⟩ := pairwise_append.mp h.chain
    refine pairwise_append.mpr ⟨hpre, pairwise_cons.mpr ⟨hn, hpost⟩, ?_⟩
    intro a ha b hb
    rcases mem_cons.mp hb with rfl | hb
    · exact hp a ha
    · exact hcross a ha b hb

/-- No entry of an ordered list ends behind the last one. -/
theorem Ordered.hi_le_last (h : Ordered lo hi S) (hx : x ∈ S.getLast?) (hy : y ∈ S) :
    hi y ≤ hi x := by
  obtain ⟨ys, rfl⟩ := List.getLast?_eq_some_iff.mp hx
  rcases mem_append.mp hy with hy | hy
  · have h₁ := (pairwise_append.mp h.chain).2.2 y hy x (by simp)
    have h₂ := h.bounds x (by simp)
    omega
  · rw [mem_singleton.mp hy]

/-- No entry of an ordered list starts before the first one. -/
theorem Ordered.head_le_lo (h : Ordered lo hi S) (hx : x ∈ S.head?) (hy : y ∈ S) : lo x ≤ lo y := by
  obtain ⟨ys, rfl⟩ := List.head?_eq_some_iff.mp hx
  rcases mem_cons.mp hy with rfl | hy
  · exact le_rfl
  · have h₁ := (pairwise_cons.mp h.chain).1 y hy
    have h₂ := h.bounds x (by simp)
    omega

theorem Ordered.left (h : Ordered lo hi (pre ++ post)) : Ordered lo hi pre :=
  ⟨fun y hy => h.bounds y (mem_append_left _ hy), (pairwise_append.mp h.chain).1⟩

theorem Ordered.right (h : Ordered lo hi (pre ++ post)) : Ordered lo hi post :=
  ⟨fun y hy => h.bounds y (mem_append_right _ hy), (pairwise_append.mp h.chain).2.1⟩

theorem Ordered.cross (h : Ordered lo hi (pre ++ post)) (hx : x ∈ pre) (hy : y ∈ post) :
    hi x < lo y :=
  (pairwise_append.mp h.chain).2.2 x hx y hy

@[simp] theorem stop_nil : stop hi n ([] : List ι) = n := rfl

@[simp] theorem stop_concat : stop hi n (S ++ [y]) = hi y + 1 := by
  simp [stop]

theorem stop_append_cons : stop hi n (pre ++ y :: post) = stop hi n (y :: post) := by
  simp [stop, List.getLast?_append, List.getLast?_cons]

theorem stop_cons : stop hi n (y :: S) = stop hi (hi y + 1) S := by
  rcases S.eq_nil_or_concat with rfl | ⟨ys, z, rfl⟩
  · simp [stop]
  · simp [stop, List.getLast?_cons]

theorem Ordered.hi_lt_stop (h : Ordered lo hi S) (hy : y ∈ S) : hi y < stop hi n S := by
  rcases hl : S.getLast? with _ | x
  · rw [List.getLast?_eq_none_iff.mp hl] at hy
    cases hy
  · have := h.hi_le_last hl hy
    simp only [stop, hl, Option.map_some, Option.getD_some]
    omega

theorem Ordered.lt_stop (h : Ordered lo hi S) (hp : p ∈ offsets lo hi S) : p < stop hi n S := by
  obtain ⟨y, hy, -, hle⟩ := mem_offsets.mp hp
  exact hle.trans_lt (h.hi_lt_stop hy)

/-- A contiguous list covers the range from its start to its stop. -/
theorem Ordered.offsets_of_contiguousFrom (h : Ordered lo hi S) (hc : ContiguousFrom lo hi n S) :
    offsets lo hi S = Finset.Ico n (stop hi n S) := by
  induction S generalizing n with
  | nil => simp
  | cons y S ih =>
      obtain ⟨hy, hc⟩ := hc
      have h' : Ordered lo hi ([y] ++ S) := h
      have hS : Ordered lo hi S := h'.right
      have hb := h.bounds y mem_cons_self
      have hle : hi y + 1 ≤ stop hi (hi y + 1) S := by
        rcases hl : S.getLast? with _ | z
        · simp [List.getLast?_eq_none_iff.mp hl]
        · have hz : z ∈ S := mem_of_mem_getLast? hl
          have h₁ := h'.cross (mem_singleton.mpr rfl) hz
          have h₂ := hS.bounds z hz
          simp only [stop, hl, Option.map_some, Option.getD_some]
          omega
      rw [offsets_cons, ih hS hc, stop_cons]
      ext p
      simp only [Finset.mem_union, Finset.mem_Icc, Finset.mem_Ico]
      omega

/-- **The scan finds a contiguous list exactly on an initial range**: an ordered list whose
entries start inside `[n, e]` is contiguous from `n` iff it covers `[n, e)` with `e` its stop. -/
theorem Ordered.contiguousFrom_of_offsets {e : ℕ} (h : Ordered lo hi S)
    (hlo : ∀ y ∈ S, n ≤ lo y ∧ lo y ≤ e) (hS : offsets lo hi S = Finset.Ico n e) :
    ContiguousFrom lo hi n S := by
  induction S generalizing n with
  | nil => trivial
  | cons y S ih =>
      have h' : Ordered lo hi ([y] ++ S) := h
      have hcross : ∀ z ∈ S, hi y < lo z :=
        fun z hz => h'.cross (mem_singleton.mpr rfl) hz
      have hb := h.bounds y mem_cons_self
      obtain ⟨h₁, h₂⟩ := hlo y mem_cons_self
      have hy : lo y = n := by
        by_contra hne
        -- `n` is in front of every entry, so it would be uncovered
        have hmem : n ∈ offsets lo hi (y :: S) := by
          rw [hS, Finset.mem_Ico]
          omega
        obtain ⟨z, hz, h₃, -⟩ := mem_offsets.mp hmem
        rcases mem_cons.mp hz with rfl | hz
        · omega
        · have := hcross z hz
          omega
      refine ⟨hy, ih h'.right (fun z hz => ⟨hcross z hz, (hlo z (mem_cons_of_mem _ hz)).2⟩) ?_⟩
      ext p
      have hp : p ∈ offsets lo hi (y :: S) ↔ p ∈ Finset.Ico n e := by rw [hS]
      have hsub : p ∈ offsets lo hi S → hi y < p := by
        intro hp
        obtain ⟨z, hz, h₃, -⟩ := mem_offsets.mp hp
        exact (hcross z hz).trans_le h₃
      simp only [offsets_cons, Finset.mem_union, Finset.mem_Icc, Finset.mem_Ico] at hp ⊢
      constructor
      · intro hm
        have := hsub hm
        exact ⟨this, (hp.mp (Or.inr hm)).2⟩
      · rintro ⟨h₃, h₄⟩
        rcases hp.mpr ⟨by omega, h₄⟩ with h₅ | h₅
        · omega
        · exact h₅

end intervals

/-! ### Contents by first arrival -/

section arrival

variable {α : Type*}

/-- A piece of content: where it starts and what it carries. -/
structure Piece (α : Type*) where
  /-- The first offset the piece covers. -/
  offset : ℕ
  /-- The elements it carries, for consecutive offsets. -/
  data : List α

/-- What a piece carries for the offset `p`. -/
def Piece.at? (c : Piece α) (p : ℕ) : Option α :=
  if c.offset ≤ p then c.data[p - c.offset]? else none

/-- What the first piece that covers `p` carries for it. -/
def firstAt (A : List (Piece α)) (p : ℕ) : Option α := A.findSome? fun c => c.at? p

/-- The offsets of a piece. -/
def Piece.range (c : Piece α) : Finset ℕ := Finset.Ico c.offset (c.offset + c.data.length)

/-- The offsets of all pieces. -/
def span (A : List (Piece α)) : Finset ℕ := A.foldr (fun c F => c.range ∪ F) ∅

variable {A : List (Piece α)} {c : Piece α} {p : ℕ}

theorem Piece.mem_range : p ∈ c.range ↔ c.offset ≤ p ∧ p < c.offset + c.data.length :=
  Finset.mem_Ico

theorem Piece.at?_eq_none : c.at? p = none ↔ p ∉ c.range := by
  unfold Piece.at?
  rw [Piece.mem_range]
  split_ifs with h
  · rw [List.getElem?_eq_none_iff]
    omega
  · simp [h]

theorem mem_span : p ∈ span A ↔ ∃ c ∈ A, p ∈ c.range := by
  induction A with
  | nil => simp [span]
  | cons c A ih =>
      simp only [span, foldr_cons, Finset.mem_union, exists_mem_cons_iff]
      exact or_congr Iff.rfl ih

theorem span_concat : span (A ++ [c]) = span A ∪ c.range := by
  ext p
  simp [mem_span, or_comm, or_and_right, exists_or]

@[simp] theorem firstAt_singleton : firstAt [c] p = c.at? p := by
  cases h : c.at? p <;> simp [firstAt, h]

theorem firstAt_concat : firstAt (A ++ [c]) p = (firstAt A p).or (c.at? p) := by
  simp [firstAt, List.findSome?_append, List.findSome?_cons]
  cases c.at? p <;> simp

theorem firstAt_eq_none : firstAt A p = none ↔ p ∉ span A := by
  simp [firstAt, mem_span, Piece.at?_eq_none]

/-- Behind its first arrival an offset keeps its content. -/
theorem firstAt_concat_of_mem (h : p ∈ span A) : firstAt (A ++ [c]) p = firstAt A p := by
  rw [firstAt_concat]
  rcases hf : firstAt A p with _ | a
  · exact absurd h (firstAt_eq_none.mp hf)
  · rfl

theorem firstAt_concat_of_not_mem (h : p ∉ span A) : firstAt (A ++ [c]) p = c.at? p := by
  rw [firstAt_concat, firstAt_eq_none.mpr h, Option.none_or]

/-- Where all pieces agree, the first one does not matter. -/
theorem firstAt_eq_of_forall {v : Option α} (hp : p ∈ span A)
    (h : ∀ c ∈ A, p ∈ c.range → c.at? p = v) : firstAt A p = v := by
  rcases hf : firstAt A p with _ | a
  · exact absurd hp (firstAt_eq_none.mp hf)
  · obtain ⟨c, hc, hat⟩ := exists_of_findSome?_eq_some hf
    have hmem : p ∈ c.range := by
      by_contra hnot
      rw [Piece.at?_eq_none.mpr hnot] at hat
      cases hat
    rw [← h c hc hmem, hat]

end arrival

end Coverage
