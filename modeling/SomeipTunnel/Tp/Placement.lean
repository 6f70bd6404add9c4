import SomeipTunnel.Lib.Coverage
import SomeipTunnel.Tp.Message

/-!
# What one accepted segment does

An accepted segment goes into a gap of the ordered segments, between `pre` and `post`, and a branch
of `add_segment` stores a part of it there. `operator<` is no order on arbitrary intervals: it puts
an interval in front of every one that it lies inside, and that is the only thing it lacks of a
strict weak order (`segment_lt_strictWeakOrder_iff`). So the neighbours of the gap are the ones that
the branches assume only for an `Admissible` segment.

* `emplace_eq_none_iff_mem`: among disjoint segments the set refuses only an interval that is there.
* `clip_of_gap`: for an admissible segment the part between the neighbours, from `clipStart` to
  `clipEnd`, is well formed (`Clip`).
* `TpMessage.place_placed`: every branch stores exactly that part (`Placed`): its copy, its growth of
  the size counter and its change of the segments.
* `Placed.inBounds`: the copy of a branch stays inside of the datagram and of `message_`.
-/

namespace SomeipTunnel.Tp

open Buffer Coverage List OrderedSet Segment

/-- The payload offsets that a set of segments covers. -/
abbrev covered (S : List Segment) : Finset ℕ := offsets start_ end_ S

/-- The offset behind the last segment. -/
abbrev stopOf (S : List Segment) : ℕ := stop end_ 0 S

/-- The segments are in order and each one ends before the next one starts. -/
abbrev OrderedSegments (S : List Segment) : Prop := Ordered start_ end_ S

/-! ### The comparator -/

namespace Segment

theorem lt_eq_true {a b : Segment} :
    a.lt b = true ↔ a.start_ < b.start_ ∨ b.start_ ≤ a.start_ ∧ a.end_ < b.end_ := by
  simp [lt]

theorem lt_eq_false {a b : Segment} : a.lt b = false ↔ b.start_ ≤ a.start_ ∧ b.end_ ≤ a.end_ := by
  rw [← Bool.not_eq_true, lt_eq_true]
  omega

/-- `a` lies strictly inside `b`. -/
def Inside (a b : Segment) : Prop := b.start_ < a.start_ ∧ a.end_ < b.end_

/-- Each of two segments is before the other iff one of them lies strictly inside the other. -/
theorem lt_lt_iff_inside {a b : Segment} :
    a.lt b = true ∧ b.lt a = true ↔ a.Inside b ∨ b.Inside a := by
  rw [lt_eq_true, lt_eq_true, Inside, Inside]
  omega

/-- Segments that the comparator cannot tell apart are the same. -/
theorem eq_of_lt_eq_false {a b : Segment} (hab : a.lt b = false) (hba : b.lt a = false) :
    a = b := by
  rw [lt_eq_false] at hab hba
  rcases a with ⟨as, ae⟩
  rcases b with ⟨bs, be⟩
  rw [mk.injEq]
  exact ⟨le_antisymm hba.1 hab.1, le_antisymm hba.2 hab.2⟩

/-- The comparator is transitive where no segment lies strictly inside another: it is the
lexicographic order there. -/
theorem lt_trans_of_not_inside {a b c : Segment} (hba : ¬b.Inside a) (hcb : ¬c.Inside b)
    (hab : a.lt b = true) (hbc : b.lt c = true) : a.lt c = true := by
  rw [Inside] at hba hcb
  rw [lt_eq_true] at hab hbc ⊢
  omega

end Segment

/-- **The order of the segments.** On a set of segments `operator<` is a strict weak order whose
equivalent elements are equal iff no segment of the set lies strictly inside another one. -/
theorem segment_lt_strictWeakOrder_iff (S : Set Segment) :
    (IsStrictWeakOrder S (fun a b => a.1.lt b.1) ∧
        ∀ a ∈ S, ∀ b ∈ S, a.lt b = false → b.lt a = false → a = b) ↔
      ∀ a ∈ S, ∀ b ∈ S, ¬a.Inside b := by
  constructor
  · rintro ⟨horder, -⟩ a ha b hb hin
    obtain ⟨hab, hba⟩ := lt_lt_iff_inside.mpr (.inl hin)
    have haa := horder.trans ⟨a, ha⟩ ⟨b, hb⟩ ⟨a, ha⟩ hab hba
    exact horder.irrefl ⟨a, ha⟩ haa
  · intro hin
    refine ⟨{ irrefl := ?_, trans := ?_, incomp_trans := ?_ }, ?_⟩
    · intro a
      simp [lt]
    · intro a b c
      exact lt_trans_of_not_inside (hin b b.2 a a.2) (hin c c.2 b b.2)
    · intro a b c hab hbc
      simp only [Bool.not_eq_true] at hab hbc ⊢
      have hab' : a.1 = b.1 := eq_of_lt_eq_false hab.1 hab.2
      rw [hab']
      exact hbc
    · intro a _ b _
      exact eq_of_lt_eq_false

/-- The segments `0 .. 47` and `16 .. 31` are each before the other, so `operator<` is no strict
weak order of the segments that are not empty. -/
theorem segment_lt_not_strictWeakOrder :
    (⟨0, 47⟩ : Segment).lt ⟨16, 31⟩ = true ∧ (⟨16, 31⟩ : Segment).lt ⟨0, 47⟩ = true ∧
      ¬IsStrictWeakOrder {s : Segment // s.start_ ≤ s.end_} (fun a b => a.1.lt b.1) := by
  refine ⟨by decide, by decide, fun horder => ?_⟩
  have h := horder.trans ⟨⟨0, 47⟩, by decide⟩ ⟨⟨16, 31⟩, by decide⟩ ⟨⟨0, 47⟩, by decide⟩
    (by decide) (by decide)
  exact horder.irrefl _ h

/-- Outside the corner cases of an empty segment at offset 0 and of the end of the 32-bit range,
the interval is the one meant. -/
theorem segmentOf_eq {s size : ℕ} (h0 : 0 < s + size) (h : s + size < 2 ^ 32) :
    segmentOf s size = ⟨s, s + size - 1⟩ := by
  simp only [segmentOf, u32_of_lt h, u32Sub_of_le h0 h]

/-- In an ordered set only the interval itself counts as a duplicate. -/
theorem emplace_eq_none_iff_mem {S : List Segment} {c : Segment} (hord : OrderedSegments S) :
    emplace lt S c = none ↔ c ∈ S := by
  constructor
  · intro h
    obtain ⟨p, hp, h₁, h₂⟩ := emplace_eq_none h
    exact eq_of_lt_eq_false h₂ h₁ ▸ hp
  · intro hc
    by_contra hne
    obtain ⟨⟨pre, post⟩, hsome⟩ := Option.ne_none_iff_exists'.mp hne
    have hgap := emplace_eq_some hsome
    rw [hgap.split] at hc hord
    have hcb := hord.bounds c hc
    rcases mem_append.mp hc with hc | hc
    · -- the last element in front of the gap would be `c` or start with it
      obtain ⟨p, hp⟩ : ∃ p, pre.getLast? = some p :=
        ⟨_, List.getLast?_eq_some_getLast (ne_nil_of_mem hc)⟩
      have hpmem := mem_of_mem_getLast? hp
      have h₁ := lt_eq_false.mp (hgap.pre_not p hpmem)
      have h₂ := lt_eq_true.mp (hgap.prev p hp)
      have h₃ := hord.left.bounds p hpmem
      obtain ⟨ys, rfl⟩ := List.getLast?_eq_some_iff.mp hp
      rcases mem_append.mp hc with hc | hc
      · have h₄ := hord.left.cross hc (mem_singleton.mpr rfl)
        omega
      · obtain rfl := mem_singleton.mp hc
        omega
    · obtain ⟨n, hn⟩ : ∃ n, post.head? = some n :=
        ⟨_, List.head?_eq_some_head (ne_nil_of_mem hc)⟩
      have h₁ := lt_eq_true.mp (hgap.next n hn)
      have h₃ := hord.right.bounds n (mem_of_mem_head? hn)
      obtain ⟨ys, rfl⟩ := List.head?_eq_some_iff.mp hn
      rcases mem_cons.mp hc with rfl | hc
      · omega
      · have h₄ := (pairwise_cons.mp hord.right.chain).1 c hc
        omega

/-- Putting an interval into a gap of an ordered set: it goes there, or it is an empty one that is
already there. -/
theorem insert_between {pre post : List Segment} {a b : ℕ} (hord : OrderedSegments (pre ++ post))
    (hab : a ≤ b) (hb : 0 < b) (hpre : ∀ y ∈ pre, y.end_ < a) (hpost : ∀ y ∈ post, b ≤ y.start_) :
    OrderedSet.insert lt (pre ++ post) ⟨a, b - 1⟩ = pre ++ ⟨a, b - 1⟩ :: post ∨
      (a = b ∧ ⟨a, b - 1⟩ ∈ pre ++ post ∧
        OrderedSet.insert lt (pre ++ post) ⟨a, b - 1⟩ = pre ++ post) := by
  by_cases hmem : (⟨a, b - 1⟩ : Segment) ∈ pre ++ post
  · right
    refine ⟨?_, hmem, by simp only [OrderedSet.insert, (emplace_eq_none_iff_mem hord).mpr hmem]⟩
    rcases mem_append.mp hmem with h | h
    · have := hpre _ h
      simp only at this
      omega
    · have := hpost _ h
      simp only at this
      omega
  · left
    have hbound := hord.bounds
    have hne : ∀ y ∈ pre ++ post, y.start_ = a → y.end_ ≠ b - 1 := by
      rintro ⟨ys, ye⟩ hy rfl rfl
      exact hmem hy
    refine insert_of_gap ⟨rfl, fun y hy => ?_, fun n hn => ?_, fun p hp => ?_⟩
    · have h₁ := hpre y hy
      have h₂ := hbound y (mem_append_left _ hy)
      rw [lt_eq_false]
      simp only
      omega
    · have hn := mem_of_mem_head? hn
      have h₁ := hpost n hn
      have h₂ := hbound n (mem_append_right _ hn)
      have h₃ := hne n (mem_append_right _ hn)
      rw [lt_eq_true]
      simp only
      omega
    · have hp := mem_of_mem_getLast? hp
      have h₁ := hpre p hp
      have h₂ := hbound p (mem_append_left _ hp)
      have h₃ := hne p (mem_append_left _ hp)
      rw [lt_eq_true]
      simp only
      omega

/-! ### The part of a segment that is stored -/

/-- The segments for which the branches of `add_segment` do what they are meant to do, given the
segments that are there: the message stays below the 32-bit limit, the segment is not the empty
one at offset 0, it does not lie inside a segment that is there (except at the beginning of one
that is not the first), and if it starts inside one and ends in front of a later one, it leaves no
hole in front of that one.
Source: none: the condition under which the neighbours are on the sides the branches assume -/
structure Admissible (S : List Segment) (offset size : ℕ) : Prop where
  fits : 16 + offset + size < 2 ^ 32
  proper : 0 < offset + size
  notInside : ∀ y ∈ S, y.start_ ≤ offset → offset + size ≤ y.end_ → offset = y.start_ ∧ 0 < offset
  noHole : ∀ y ∈ S, y.start_ ≤ offset → offset ≤ y.end_ → y.end_ < offset + size →
    ∀ z ∈ S, offset + size < z.start_ → ∃ w ∈ S, y.end_ < w.start_ ∧ w.start_ ≤ offset + size

instance (S : List Segment) (offset size : ℕ) : Decidable (Admissible S offset size) :=
  decidable_of_iff (16 + offset + size < 2 ^ 32 ∧ 0 < offset + size ∧
    (∀ y ∈ S, y.start_ ≤ offset → offset + size ≤ y.end_ → offset = y.start_ ∧ 0 < offset) ∧
    ∀ y ∈ S, y.start_ ≤ offset → offset ≤ y.end_ → y.end_ < offset + size →
      ∀ z ∈ S, offset + size < z.start_ → ∃ w ∈ S, y.end_ < w.start_ ∧ w.start_ ≤ offset + size)
    ⟨fun ⟨h₁, h₂, h₃, h₄⟩ => ⟨h₁, h₂, h₃, h₄⟩, fun ⟨h₁, h₂, h₃, h₄⟩ => ⟨h₁, h₂, h₃, h₄⟩⟩

/-- The first offset that is stored: what the segments in front cover is left out. -/
def clipStart (offset : ℕ) (pre : List Segment) : ℕ := max offset (stopOf pre)

/-- The offset behind the last one that is stored: it ends where the next segment starts. -/
def clipEnd (stop : ℕ) (post : List Segment) : ℕ :=
  (post.head?.map fun n => min stop n.start_).getD stop

section clip

variable {S pre post : List Segment} {s size : ℕ}

theorem stopOf_eq_of_getLast? {p : Segment} (h : pre.getLast? = some p) :
    stopOf pre = p.end_ + 1 := by
  simp [stopOf, stop, h]

theorem stopOf_of_getLast?_none (h : pre.getLast? = none) : stopOf pre = 0 := by
  simp [stopOf, stop, h]

theorem clipEnd_of_head? {n : Segment} {e : ℕ} (h : post.head? = some n) :
    clipEnd e post = min e n.start_ := by
  simp [clipEnd, h]

theorem clipEnd_of_head?_none {e : ℕ} (h : post.head? = none) : clipEnd e post = e := by
  simp [clipEnd, h]

/-- Facts about the stored part `[a, b)`: it is a part of the segment, and it lies in the gap. -/
structure Clip (pre post : List Segment) (s size a b : ℕ) : Prop where
  le : a ≤ b
  pos : 0 < b
  lower : s ≤ a
  upper : b ≤ s + size
  pre_lt : ∀ y ∈ pre, y.end_ < a
  post_ge : ∀ y ∈ post, b ≤ y.start_
  stop_le : stopOf pre ≤ a

/-- The stored part of an admissible segment lies in the gap that `emplace` finds. -/
theorem clip_of_gap (hord : OrderedSegments S) (hadm : Admissible S s size)
    (hgap : Gap lt S (segmentOf s size) pre post) :
    Clip pre post s size (clipStart s pre) (clipEnd (s + size) post) := by
  have hfits := hadm.fits
  have hproper := hadm.proper
  rw [segmentOf_eq hproper (by omega)] at hgap
  have hS := hgap.split
  rw [hS] at hord
  -- the segment ends behind what is in front of the gap
  have hstop : stopOf pre ≤ s + size := by
    rcases hl : pre.getLast? with _ | p
    · simp [stopOf_of_getLast?_none hl]
    · have h₁ := lt_eq_false.mp (hgap.pre_not p (mem_of_mem_getLast? hl))
      rw [stopOf_eq_of_getLast? hl]
      simp only at h₁
      omega
  have hpre : ∀ y ∈ pre, y.end_ < clipStart s pre := fun y hy =>
    lt_max_of_lt_right (hord.left.hi_lt_stop hy)
  rcases hn : post.head? with _ | n
  · rw [List.head?_eq_none_iff.mp hn, clipEnd_of_head?_none rfl]
    exact ⟨max_le (by omega) hstop, hproper, le_max_left _ _, le_rfl, hpre, by simp,
      le_max_right _ _⟩
  · have hnmem := mem_of_mem_head? hn
    have hnS : n ∈ S := hS ▸ mem_append_right _ hnmem
    have hlt := lt_eq_true.mp (hgap.next n hn)
    simp only at hlt
    -- the segment does not start behind the start of the next one: it would lie inside it
    have hs : s ≤ n.start_ ∧ 0 < n.start_ := by
      rcases hlt with h | ⟨h₁, h₂⟩
      · omega
      · have := hadm.notInside n hnS h₁ (by omega)
        omega
    have hstopn : stopOf pre ≤ n.start_ := by
      rcases hl : pre.getLast? with _ | p
      · simp [stopOf_of_getLast?_none hl]
      · rw [stopOf_eq_of_getLast? hl]
        exact hord.cross (mem_of_mem_getLast? hl) hnmem
    rw [clipEnd_of_head? hn]
    refine ⟨?_, ?_, le_max_left _ _, min_le_left _ _, hpre, fun y hy => ?_, le_max_right _ _⟩
    · simp only [clipStart, max_le_iff, le_min_iff]
      omega
    · simp only [lt_min_iff]
      omega
    · exact (min_le_right _ _).trans (hord.right.head_le_lo hn hy)

/-- What a branch of `add_segment` does for the stored part `[a, b)` of a segment that starts at
`s`: the copy moves exactly the bytes of `[a, b)`, either behind the end of `message_` (which was
resized if there is a hole in front of `a`) or over its middle, and the interval `[a, b - 1]` is
put into the set. -/
structure Placed (m : TpMessage) (s a b : ℕ) (pre post : List Segment) (p : Placement) : Prop where
  grown : p.grown = b - a
  count : p.copy.count = b - a
  exact : p.copy.exact = ((b - a : ℕ) : ℤ)
  src : p.copy.src = ((20 + (a - s) : ℕ) : ℤ)
  segments : p.segments = OrderedSet.insert lt (pre ++ post) ⟨a, b - 1⟩
  shape : (post.head? = none ∧ p.atEnd = true ∧ p.copy.dst = p.base.length ∧
      p.copy.room = p.base.length + (b - a) ∧
      (p.base = m.message_ ∧ a = stopOf pre ∨
        p.base = resize m.message_ (16 + a) 0 ∧ stopOf pre < a)) ∨
    ((∃ n, post.head? = some n) ∧ p.atEnd = false ∧ p.base = m.message_ ∧
      p.copy.room = m.message_.length ∧ (a = b ∨ p.copy.dst = 16 + a))

variable {m : TpMessage}

/-- The segment goes behind all others. -/
theorem TpMessage.placeLast_placed (hord : OrderedSegments m.segments_)
    (hadm : Admissible m.segments_ s size)
    (hgap : Gap lt m.segments_ (segmentOf s size) pre []) :
    Placed m s (clipStart s pre) (s + size) pre [] (m.placeLast s size pre) := by
  have hfits := hadm.fits
  have hproper := hadm.proper
  have hclip := clip_of_gap hord hadm hgap
  rw [clipEnd_of_head?_none rfl] at hclip
  have hcur := segmentOf_eq hproper (by omega : s + size < 2 ^ 32)
  have hu : u32 (16 + s) = 16 + s := u32_of_lt (by omega)
  have hcount : (size + 2 ^ 64 - 0) % 2 ^ 64 = size := by omega
  have hins : pre ++ [segmentOf s size] = OrderedSet.insert lt (pre ++ [])
      ⟨s, s + size - 1⟩ := by
    rw [← hcur, ← hgap.split, insert_of_gap hgap]
  unfold TpMessage.placeLast
  rcases hl : pre.getLast? with _ | prev
  · obtain rfl := List.getLast?_eq_none_iff.mp hl
    have ha : clipStart s [] = s := by simp [clipStart]
    simp only [ha, insertCopy, hcount, hu]
    refine ⟨by simp, by simp, by simp, by simp, by simpa using hins, Or.inl ?_⟩
    refine ⟨rfl, rfl, rfl, by simp, ?_⟩
    by_cases h0 : s = 0
    · exact Or.inl ⟨by simp [h0], by simp [h0]⟩
    · exact Or.inr ⟨by simp [h0], by simp only [stop_nil]; omega⟩
  · have hstop := stopOf_eq_of_getLast? hl
    have h₁ := lt_eq_false.mp (hgap.pre_not prev (mem_of_mem_getLast? hl))
    rw [hcur] at h₁
    simp only at h₁
    have hp : u32 (prev.end_ + 1) = prev.end_ + 1 := u32_of_lt (by omega)
    simp only [hcur, hp]
    by_cases hlt : prev.end_ < s
    · have ha : clipStart s pre = s := by
        simp only [clipStart, hstop]
        omega
      simp only [hlt, if_true, ha, insertCopy, hcount, hu]
      rw [hcur] at hins
      refine ⟨by simp, by simp, by simp, by simp, hins, Or.inl ?_⟩
      refine ⟨rfl, rfl, rfl, by simp, ?_⟩
      by_cases hd : prev.end_ + 1 = s
      · exact Or.inl ⟨by simp [hd], by omega⟩
      · exact Or.inr ⟨by simp [hd], by omega⟩
    · have ha : clipStart s pre = prev.end_ + 1 := by
        simp only [clipStart, hstop]
        omega
      have hskip : u32Sub (prev.end_ + 1) s = prev.end_ + 1 - s :=
        u32Sub_of_le (by omega) (by omega)
      have hgrown : u32Sub (s + size - 1) prev.end_ = s + size - 1 - prev.end_ :=
        u32Sub_of_le (by omega) (by omega)
      have hcount' : (size + 2 ^ 64 - (prev.end_ + 1 - s)) % 2 ^ 64 =
          s + size - (prev.end_ + 1) := by omega
      simp only [hlt, if_false, ha, insertCopy, hskip, hgrown, hcount']
      refine ⟨by simp only; omega, rfl, by simp only; omega, by simp only; omega, by simp, Or.inl ?_⟩
      exact ⟨rfl, rfl, rfl, rfl, Or.inl ⟨rfl, hstop.symm⟩⟩

/-- Nothing in front reaches into the segment and there is a next one. -/
theorem TpMessage.placeBefore_placed {next : Segment} (hord : OrderedSegments m.segments_)
    (hadm : Admissible m.segments_ s size)
    (hgap : Gap lt m.segments_ (segmentOf s size) pre post) (hnext : post.head? = some next)
    (ha : clipStart s pre = s) :
    Placed m s s (clipEnd (s + size) post) pre post (m.placeBefore s size pre post next) := by
  have hfits := hadm.fits
  have hproper := hadm.proper
  have hclip := clip_of_gap hord hadm hgap
  rw [clipEnd_of_head? hnext] at hclip ⊢
  have hle := hclip.le
  have hpos := hclip.pos
  rw [ha] at hle
  rw [le_min_iff] at hle
  rw [lt_min_iff] at hpos
  have hcur := segmentOf_eq hproper (by omega : s + size < 2 ^ 32)
  have hu : u32 (16 + s) = 16 + s := u32_of_lt (by omega)
  have hins : pre ++ segmentOf s size :: post = OrderedSet.insert lt (pre ++ post)
      ⟨s, s + size - 1⟩ := by
    rw [← hcur, ← hgap.split, insert_of_gap hgap]
  unfold TpMessage.placeBefore
  simp only [hcur, hu] at hins ⊢
  by_cases hend : s + size - 1 < next.start_
  · have hb : min (s + size) next.start_ = s + size := by omega
    simp only [hend, if_true, hb]
    refine ⟨by simp, by simp, by simp, by simp, hins, Or.inr ?_⟩
    exact ⟨⟨next, hnext⟩, rfl, rfl, rfl, Or.inr rfl⟩
  · have hb : min (s + size) next.start_ = next.start_ := by omega
    have hsub : u32Sub next.start_ s = next.start_ - s := u32Sub_of_le (by omega) (by omega)
    have hone : u32Sub next.start_ 1 = next.start_ - 1 := u32Sub_of_le (by omega) (by omega)
    simp only [hend, if_false, hb, hsub, hone]
    refine ⟨rfl, rfl, by simp only; omega, by simp, rfl, Or.inr ?_⟩
    exact ⟨⟨next, hnext⟩, rfl, rfl, rfl, Or.inr rfl⟩

/-- The segment starts inside the previous one and there is a next one. -/
theorem TpMessage.placeBetween_placed {prev next : Segment} (hord : OrderedSegments m.segments_)
    (hadm : Admissible m.segments_ s size)
    (hgap : Gap lt m.segments_ (segmentOf s size) pre post)
    (hprev : pre.getLast? = some prev) (hnext : post.head? = some next) (hle : s ≤ prev.end_) :
    Placed m s (prev.end_ + 1) (clipEnd (s + size) post) pre post
      (m.placeBetween s size pre post prev next) := by
  have hfits := hadm.fits
  have hproper := hadm.proper
  have hclip := clip_of_gap hord hadm hgap
  rw [clipEnd_of_head? hnext] at hclip ⊢
  have hcur := segmentOf_eq hproper (by omega : s + size < 2 ^ 32)
  have hpmem := mem_of_mem_getLast? hprev
  have hnmem := mem_of_mem_head? hnext
  have hp := lt_eq_false.mp (hgap.pre_not prev hpmem)
  rw [hcur] at hp
  simp only at hp
  have hS := hgap.split
  have hcross : prev.end_ < next.start_ := (hS ▸ hord : OrderedSegments _).cross hpmem hnmem
  have hcorr : u32 (prev.end_ + 1) = prev.end_ + 1 := u32_of_lt (by omega)
  unfold TpMessage.placeBetween
  simp only [hcur, hcorr]
  by_cases hend : s + size - 1 < next.start_
  · -- no hole may be left in front of the next segment, or the copy reads behind the payload
    have hb : next.start_ = s + size := by
      by_contra hne
      obtain ⟨w, hw, h₁, h₂⟩ := hadm.noHole prev (hS ▸ mem_append_left _ hpmem) hp.1 hle
        (by omega) next (hS ▸ mem_append_right _ hnmem) (by omega)
      rw [hS] at hw hord
      rcases mem_append.mp hw with hw | hw
      · have h₃ := hord.left.hi_le_last hprev hw
        have h₄ := hord.left.bounds w hw
        obtain ⟨ys, rfl⟩ := List.getLast?_eq_some_iff.mp hprev
        rcases mem_append.mp hw with hw | hw
        · have h₅ := hord.left.cross hw (mem_singleton.mpr rfl)
          omega
        · obtain rfl := mem_singleton.mp hw
          omega
      · have := hord.right.head_le_lo hnext hw
        omega
    have hmin : min (s + size) next.start_ = s + size := by omega
    have hsub : u32Sub next.start_ (prev.end_ + 1) = next.start_ - (prev.end_ + 1) :=
      u32Sub_of_le (by omega) (by omega)
    have hgrown : u32Sub (s + size - 1) prev.end_ = s + size - 1 - prev.end_ :=
      u32Sub_of_le (by omega) (by omega)
    simp only [hend, if_true, hmin, hsub, hgrown]
    refine ⟨by simp only; omega, by simp only; omega, by simp only; omega, by simp only; omega,
      rfl, Or.inr ⟨⟨next, hnext⟩, rfl, rfl, rfl, ?_⟩⟩
    by_cases hab : prev.end_ + 1 = s + size
    · exact Or.inl hab
    · exact Or.inr (u32_of_lt (by omega))
  · have hmin : min (s + size) next.start_ = next.start_ := by omega
    have hsub : u32Sub next.start_ (prev.end_ + 1) = next.start_ - (prev.end_ + 1) :=
      u32Sub_of_le (by omega) (by omega)
    have hone : u32Sub next.start_ 1 = next.start_ - 1 := u32Sub_of_le (by omega) (by omega)
    simp only [hend, if_false, hmin, hsub, hone]
    refine ⟨rfl, rfl, by simp only; omega, by simp only; omega, rfl,
      Or.inr ⟨⟨next, hnext⟩, rfl, rfl, rfl, ?_⟩⟩
    by_cases hab : prev.end_ + 1 = next.start_
    · exact Or.inl hab
    · exact Or.inr (u32_of_lt (by omega))

/-- **What `add_segment` stores**: for an admissible segment every branch stores the part of the
segment that fits into the gap of its interval.
Source: `tp_message.cpp`, lines 78–188 -/
theorem TpMessage.place_placed (hord : OrderedSegments m.segments_)
    (hadm : Admissible m.segments_ s size)
    (hgap : Gap lt m.segments_ (segmentOf s size) pre post) :
    Placed m s (clipStart s pre) (clipEnd (s + size) post) pre post (m.place s size pre post) := by
  unfold TpMessage.place
  rcases hn : post.head? with _ | next
  · obtain rfl := List.head?_eq_none_iff.mp hn
    rw [clipEnd_of_head?_none rfl]
    exact m.placeLast_placed hord hadm hgap
  · rcases hl : pre.getLast? with _ | prev
    · have ha : clipStart s pre = s := by simp [clipStart, stopOf_of_getLast?_none hl]
      rw [ha]
      exact m.placeBefore_placed hord hadm hgap hn ha
    · have hstart : (segmentOf s size).start_ = s := rfl
      have hstop := stopOf_eq_of_getLast? hl
      by_cases hlt : prev.end_ < s
      · have ha : clipStart s pre = s := by
          simp only [clipStart, hstop]
          omega
        simp only [hstart, hlt, if_true, ha]
        exact m.placeBefore_placed hord hadm hgap hn ha
      · have ha : clipStart s pre = prev.end_ + 1 := by
          simp only [clipStart, hstop]
          omega
        simp only [hstart, hlt, if_false, ha]
        exact m.placeBetween_placed hord hadm hgap hl hn (by omega)

/-! ### The effect on `message_` -/

variable {a b : ℕ} {p : Placement} {data : List UInt8}

/-- The copy of the stored part stays inside the payload and inside `message_`, provided that
`message_` reaches up to the next segment where there is something to store in front of it. -/
theorem Placed.inBounds (hp : Placed m s a b pre post p) (hc : Clip pre post s size a b)
    (hdata : data.length = 20 + size)
    (hroom : post.head? ≠ none → a < b → 16 + b ≤ m.message_.length) :
    p.copy.InBounds data.length := by
  have h₁ := hc.le
  have h₂ := hc.lower
  have h₃ := hc.upper
  refine ⟨by rw [hp.count, hp.exact], ?_⟩
  by_cases hab : a = b
  · exact Or.inl (by rw [hp.count]; omega)
  · refine Or.inr ⟨by rw [hp.src]; omega, by rw [hp.src, hp.count]; omega, ?_⟩
    rcases hp.shape with ⟨-, -, hdst, hr, -⟩ | ⟨⟨n, hn⟩, -, -, hr, hdst⟩
    · rw [hdst, hr, hp.count]
    · have := hroom (by simp [hn]) (by omega)
      rcases hdst with h | h
      · exact absurd h hab
      · rw [h, hr, hp.count]
        omega

/-- The bytes that are copied are those of the stored part. -/
theorem Placed.length_slice (hp : Placed m s a b pre post p) (hc : Clip pre post s size a b)
    (hdata : data.length = 20 + size) :
    (slice data p.copy.src.toNat p.copy.count).length = b - a := by
  have h₁ := hc.le
  have h₂ := hc.lower
  have h₃ := hc.upper
  rw [hp.src, hp.count, Int.toNat_natCast]
  exact Buffer.length_slice (by omega)

theorem Placed.getElem?_slice (hp : Placed m s a b pre post p) (hc : Clip pre post s size a b)
    {k : ℕ} (h₁ : a ≤ k) (h₂ : k < b) :
    (slice data p.copy.src.toNat p.copy.count)[k - a]? = data[20 + (k - s)]? := by
  have h₃ := hc.lower
  rw [hp.src, hp.count, Int.toNat_natCast, Buffer.getElem?_slice (by omega)]
  congr 1
  omega

/-- `message_` behind a placement at the end. -/
theorem Placed.message_atEnd (hp : Placed m s a b pre post p) (data : List UInt8)
    (hn : post.head? = none) :
    ∃ base, p.message data = base ++ slice data p.copy.src.toNat p.copy.count ∧
      (base = m.message_ ∧ a = stopOf pre ∨
        base = resize m.message_ (16 + a) 0 ∧ stopOf pre < a) := by
  rcases hp.shape with ⟨-, hend, -, -, hbase⟩ | ⟨⟨n, h⟩, -⟩
  · exact ⟨p.base, by simp [Placement.message, hend], hbase⟩
  · rw [hn] at h
    cases h

/-- `message_` behind a placement in the middle. -/
theorem Placed.message_middle (hp : Placed m s a b pre post p) (hc : Clip pre post s size a b)
    (hdata : data.length = 20 + size) (hn : post.head? ≠ none) :
    p.message data = overwrite m.message_ (16 + a) (slice data p.copy.src.toNat p.copy.count) := by
  rcases hp.shape with ⟨h, -⟩ | ⟨-, hend, hbase, -, hdst⟩
  · exact absurd h hn
  · simp only [Placement.message, hend, hbase, Bool.false_eq_true, if_false]
    rcases hdst with h | h
    · have hnil : slice data p.copy.src.toNat p.copy.count = [] := by
        apply eq_nil_of_length_eq_zero
        rw [hp.length_slice hc hdata]
        omega
      rw [hnil, overwrite_nil, overwrite_nil]
    · rw [h]

end clip

end SomeipTunnel.Tp
