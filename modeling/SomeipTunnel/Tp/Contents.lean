import SomeipTunnel.Tp.MessageSafety

/-!
# The contents of `message_`: first arrival wins

A `Reception` is a `TpMessage` together with the datagrams it has accepted, in the order of their
arrival; the second part is there for the statements only. `TpMessage.Holds m A` says that the
object holds what the datagrams `A` carried: its segments cover exactly the offsets of `A`,
`message_` ends behind the last covered offset, and the byte of a covered offset is the one the
first datagram of `A` with that offset had for it.

The branches of `add_segment` keep only the part of a segment that lies in the gap of its interval.
What is behind the start of the next segment is dropped, so `Holds` needs more than `Admissible`:
everything of the segment behind that start has to be there already (`Whole`).

* `mem_covered_or_stored`: each offset of a whole segment is covered or stored.
* `TpMessage.Holds.addSegment`: a step with a whole segment (or without one) keeps `Holds`.
* `addSegment_represents`: after every step the segments are disjoint, the counters count them and
  the first arrival wins.
-/

namespace SomeipTunnel.Tp

open Buffer Coverage OrderedSet StepRun Finset

/-! ### Accepted datagrams -/

/-- What a datagram carries: its payload at its offset. -/
def pieceOf (data : List UInt8) : Piece UInt8 := ⟨offsetOf data, data.drop 20⟩

/-- The offset behind the segment of a datagram. -/
def endOf (data : List UInt8) : ℕ := offsetOf data + payloadSize data

variable {data : List UInt8} {ret : Bool} {k : ℕ}

theorem mem_range_pieceOf {p : ℕ} :
    p ∈ (pieceOf data).range ↔ offsetOf data ≤ p ∧ p < endOf data := by
  simp only [Piece.mem_range, pieceOf, endOf, payloadSize, List.length_drop]
  omega

/-- An object and the datagrams that its constructor and `add_segment` accepted. -/
structure Reception where
  message : TpMessage
  accepted : List (List UInt8)

/-- The constructor, with its datagram noted if it was accepted. -/
def Reception.start (first : List UInt8) (max : ℕ) (now : ℤ) : Reception :=
  ⟨TpMessage.new first max now, if (TpMessage.blank max now).Accepts first then [first] else []⟩

/-- `add_segment`, with its datagram noted if it was accepted. -/
def Reception.addSegment (t : Reception) (data : List UInt8) : Except Fault (Bool × Reception) :=
  (t.message.addSegment data).map fun r =>
    (r.1, ⟨r.2, if t.message.Accepts data then t.accepted ++ [data] else t.accepted⟩)

theorem Reception.addSegment_eq_ok {t t' : Reception} :
    t.addSegment data = .ok (ret, t') ↔ t.message.addSegment data = .ok (ret, t'.message) ∧
      t'.accepted = if t.message.Accepts data then t.accepted ++ [data] else t.accepted := by
  rcases t' with ⟨m', A'⟩
  unfold Reception.addSegment
  rcases t.message.addSegment data with e | ⟨r, m⟩
  · simp [Except.map]
  · simp only [Except.map, Except.ok.injEq, Prod.mk.injEq, Reception.mk.injEq]
    constructor
    · rintro ⟨rfl, rfl, rfl⟩
      exact ⟨⟨rfl, rfl⟩, rfl⟩
    · rintro ⟨⟨rfl, rfl⟩, rfl⟩
      exact ⟨rfl, rfl, rfl⟩

/-! ### Segments that are not cut -/

/-- An admissible segment that loses nothing: it is not empty, and where it reaches over the start
of a later segment, everything from there to its end has been received before.
Source: none: the condition under which cutting a segment at the next one drops no byte -/
structure Whole (S : List Segment) (offset size : ℕ) : Prop extends Admissible S offset size where
  nonempty : 0 < size
  behind : ∀ y ∈ S, offset < y.start_ → ∀ p ∈ Finset.Ico y.start_ (offset + size), p ∈ covered S

instance (S : List Segment) (offset size : ℕ) : Decidable (Whole S offset size) :=
  decidable_of_iff (Admissible S offset size ∧ 0 < size ∧
    ∀ y ∈ S, offset < y.start_ → ∀ p ∈ Finset.Ico y.start_ (offset + size), p ∈ covered S)
    ⟨fun ⟨h₁, h₂, h₃⟩ => ⟨h₁, h₂, h₃⟩, fun ⟨h₁, h₂, h₃⟩ => ⟨h₁, h₂, h₃⟩⟩

/-- If the datagram is accepted, its segment loses nothing. -/
def TpMessage.TakesWhole (m : TpMessage) (data : List UInt8) : Prop :=
  m.Accepts data → Whole m.segments_ (offsetOf data) (payloadSize data)

instance (m : TpMessage) (data : List UInt8) : Decidable (m.TakesWhole data) :=
  inferInstanceAs (Decidable (_ → _))

theorem TpMessage.TakesWhole.admits {m : TpMessage} (h : m.TakesWhole data) :
    m.Admits data := fun hacc => (h hacc).toAdmissible

section contents

variable {m : TpMessage} {S pre post : List Segment} {s size a b : ℕ} {p : Placement}
  {data : List UInt8}

/-- Each offset of a whole segment is covered before or lies in the stored part. -/
theorem mem_covered_or_stored (hw : Whole S s size)
    (hgap : Gap Segment.lt S (segmentOf s size) pre post) (h₁ : s ≤ k) (h₂ : k < s + size) :
    k ∈ covered S ∨ clipStart s pre ≤ k ∧ k < clipEnd (s + size) post := by
  have hfits := hw.fits
  have hcur := segmentOf_eq hw.proper (by omega : s + size < 2 ^ 32)
  rw [hcur] at hgap
  have hS := hgap.split
  by_cases ha : clipStart s pre ≤ k
  · by_cases hb : k < clipEnd (s + size) post
    · exact Or.inr ⟨ha, hb⟩
    · -- behind the start of the next segment
      left
      rcases hn : post.head? with _ | n
      · rw [clipEnd_of_head?_none hn] at hb
        omega
      · rw [clipEnd_of_head? hn] at hb
        have hnS : n ∈ S := hS ▸ List.mem_append_right _ (List.mem_of_mem_head? hn)
        have hlt := Segment.lt_eq_true.mp (hgap.next n hn)
        simp only at hlt
        rcases hlt with hlt | ⟨hle, hend⟩
        · exact hw.behind n hnS hlt k (mem_Ico.mpr (by omega))
        · exact mem_offsets.mpr ⟨n, hnS, by omega, by omega⟩
  · -- in front of the end of the previous segment, which does not start behind the segment
    left
    rcases hl : pre.getLast? with _ | q
    · simp only [clipStart, stopOf_of_getLast?_none hl] at ha
      omega
    · have hq := List.mem_of_mem_getLast? hl
      have hnot := Segment.lt_eq_false.mp (hgap.pre_not q hq)
      simp only [clipStart, stopOf_eq_of_getLast? hl] at ha
      exact mem_offsets.mpr ⟨q, hS ▸ List.mem_append_left _ hq, hnot.1.trans h₁, by omega⟩

/-- The stored part is not covered before. -/
theorem Clip.not_mem_covered (hc : Clip pre post s size a b) (h₁ : a ≤ k) (h₂ : k < b) :
    k ∉ covered (pre ++ post) := by
  intro hk
  obtain ⟨y, hy, h₃, h₄⟩ := mem_offsets.mp hk
  rcases List.mem_append.mp hy with hy | hy
  · have := hc.pre_lt y hy
    omega
  · have := hc.post_ge y hy
    omega

/-- The covered offsets behind a placement. -/
theorem Placed.covered_segments (hp : Placed m s a b pre post p) (hc : Clip pre post s size a b)
    (hord : OrderedSegments (pre ++ post)) :
    covered p.segments = covered (pre ++ post) ∪ Finset.Ico a b := by
  have hpos := hc.pos
  rcases hp.segments_cases hc hord with hseg | ⟨rfl, -, hseg⟩
  · rw [hseg, covered, offsets_insert]
    congr 1
    ext k
    simp only [mem_Icc, mem_Ico]
    omega
  · simp [hseg]

theorem Placed.card_segments (hp : Placed m s a b pre post p) (hc : Clip pre post s size a b)
    (hord : OrderedSegments (pre ++ post)) :
    (covered p.segments).card = (covered (pre ++ post)).card + (b - a) := by
  have hdisj : Disjoint (covered (pre ++ post)) (Finset.Ico a b) := by
    rw [disjoint_right]
    intro k hk
    rw [mem_Ico] at hk
    exact hc.not_mem_covered hk.1 hk.2
  rw [hp.covered_segments hc hord, card_union_of_disjoint hdisj, Nat.card_Ico]

/-- The bytes behind a placement: the stored part comes from the datagram, what was covered before
stays. -/
theorem Placed.getElem?_message (hp : Placed m s a b pre post p) (hc : Clip pre post s size a b)
    (hord : OrderedSegments (pre ++ post)) (hdata : data.length = 20 + size)
    (hlen : m.message_.length = 16 + stopOf (pre ++ post)) :
    (∀ k, a ≤ k → k < b → (p.message data)[16 + k]? = data[20 + (k - s)]?) ∧
      ∀ k ∈ covered (pre ++ post), (p.message data)[16 + k]? = m.message_[16 + k]? := by
  have hslice := hp.length_slice hc hdata
  by_cases hn : post.head? = none
  · obtain ⟨base, hmsg, hbase⟩ := hp.message_atEnd data hn
    rw [List.head?_eq_none_iff.mp hn, List.append_nil] at hlen hord ⊢
    have hblen : base.length = 16 + a := by
      rcases hbase with ⟨rfl, ha⟩ | ⟨rfl, -⟩
      · omega
      · exact length_resize
    rw [hmsg]
    refine ⟨fun k h₁ h₂ => ?_, fun k hk => ?_⟩
    · rw [List.getElem?_append_right (by omega), hblen, ← hp.getElem?_slice hc h₁ h₂]
      congr 1
      omega
    · have hlt : k < stopOf pre := hord.lt_stop hk
      have hstop := hc.stop_le
      rw [List.getElem?_append_left (by omega)]
      rcases hbase with ⟨rfl, -⟩ | ⟨rfl, -⟩
      · rfl
      · exact getElem?_resize (by omega) (by omega)
  · rw [hp.message_middle hc hdata hn]
    -- the stored part ends in front of the next segment, hence inside `message_`
    have hfit : a < b → 16 + a + (b - a) ≤ m.message_.length := by
      intro hab
      obtain ⟨n, hn⟩ := Option.ne_none_iff_exists'.mp hn
      have hnmem := List.mem_of_mem_head? hn
      have h₁ := hc.post_ge n hnmem
      have h₂ := hord.right.bounds n hnmem
      have h₃ : n.end_ < stopOf (pre ++ post) := hord.hi_lt_stop (List.mem_append_right _ hnmem)
      omega
    refine ⟨fun k h₁ h₂ => ?_, fun k hk => ?_⟩
    · have hfit := hfit (by omega)
      rw [getElem?_overwrite_of_mem (by omega) (by omega) (by omega),
        ← hp.getElem?_slice hc h₁ h₂]
      congr 1
      omega
    · by_cases hab : a < b
      · have hfit := hfit hab
        refine getElem?_overwrite_of_not_mem (by omega) ?_
        by_contra hin
        exact hc.not_mem_covered (by omega) (by omega) hk
      · have hnil : slice data p.copy.src.toNat p.copy.count = [] :=
          List.eq_nil_of_length_eq_zero (by omega)
        rw [hnil, overwrite_nil]

end contents

/-! ### The invariant -/

/-- **The object holds what the datagrams `A` carried.** Its segments cover the offsets of `A`,
`message_` is as long as the last covered offset needs, and each covered offset has the byte of its
first arrival. -/
structure TpMessage.Holds (m : TpMessage) (A : List (List UInt8)) : Prop where
  layout : m.Layout
  nonempty : ∀ d ∈ A, 0 < payloadSize d
  spans : covered m.segments_ = span (A.map pieceOf)
  last : m.segments_ ≠ [] → stopOf m.segments_ - 1 ∈ covered m.segments_
  length : m.message_.length = 16 + stopOf m.segments_
  content : ∀ k ∈ covered m.segments_, m.message_[16 + k]? = firstAt (A.map pieceOf) k

section invariant

variable {m : TpMessage} {A : List (List UInt8)} {pre post : List Segment} {p : Placement}
  {data : List UInt8}

/-- The 32-bit limit for the whole message. -/
theorem TpMessage.Layout.stop_lt (h : m.Layout) : 16 + stopOf m.segments_ < 2 ^ 32 := by
  rcases hl : m.segments_.getLast? with _ | y
  · rw [stopOf_of_getLast?_none hl]
    norm_num
  · have := h.bound y (List.mem_of_mem_getLast? hl)
    rw [stopOf_eq_of_getLast? hl]
    omega

theorem TpMessage.Layout.card_le (h : m.Layout) :
    (covered m.segments_).card ≤ stopOf m.segments_ := by
  have hsub : covered m.segments_ ⊆ Finset.range (stopOf m.segments_) := fun k hk =>
    mem_range.mpr (h.ordered.lt_stop hk)
  simpa using card_le_card hsub

/-- What the datagram carries for the offsets of its segment. -/
theorem at?_pieceOf (h : offsetOf data ≤ k) :
    (pieceOf data).at? k = data[20 + (k - offsetOf data)]? := by
  simp only [Piece.at?, pieceOf, h, if_true, List.getElem?_drop]

/-- **The step lemma**: storing a whole segment. -/
theorem TpMessage.Holds.store (h : m.Holds A)
    (hw : Whole m.segments_ (offsetOf data) (payloadSize data))
    (hst : m.Stores data pre post p) : (m.store data p).Holds (A ++ [data]) := by
  obtain ⟨hgap, hc, hp, hdata⟩ := hst
  have hS := hgap.split
  have hord := h.layout.ordered
  have hlayout := h.layout.store hS hp hc hw.fits hdata
  have hlen := h.length
  have hmlen := h.layout.length_message hS hp hc hdata
  have hstored := fun k => mem_covered_or_stored (k := k) hw hgap
  rw [hS] at hord hlen hstored
  have hcov := hp.covered_segments hc hord
  have hstop := hp.stop_segments hc hord
  have hbytes := hp.getElem?_message hc hord hdata hlen
  have hspans := h.spans
  have hcontent := h.content
  rw [hS] at hspans hcontent
  -- the covered offsets are those of the accepted datagrams
  have hspan : covered p.segments = span ((A ++ [data]).map pieceOf) := by
    rw [List.map_append, List.map_singleton, span_concat, ← hspans, hcov]
    ext k
    simp only [mem_union, mem_Ico, mem_range_pieceOf, endOf]
    constructor
    · rintro (hk | ⟨h₁, h₂⟩)
      · exact Or.inl hk
      · have := hc.lower
        have := hc.upper
        exact Or.inr ⟨by omega, by omega⟩
    · rintro (hk | ⟨h₁, h₂⟩)
      · exact Or.inl hk
      · exact hstored k h₁ h₂
  refine ⟨hlayout, ?_, hspan, fun _ => ?_, ?_, ?_⟩
  · intro d hd
    rcases List.mem_append.mp hd with hd | hd
    · exact h.nonempty d hd
    · rw [List.mem_singleton.mp hd]
      exact hw.nonempty
  · -- the last covered offset
    simp only [TpMessage.store, hcov]
    by_cases hn : post.head? = none
    · rw [hstop.1 hn]
      by_cases hab : clipStart (offsetOf data) pre < clipEnd (offsetOf data + payloadSize data) post
      · exact mem_union_right _ (mem_Ico.mpr (by omega))
      · have hle := hc.le
        have hpos := hw.nonempty
        rw [clipEnd_of_head?_none hn] at hab hle ⊢
        rw [List.head?_eq_none_iff.mp hn, List.append_nil] at hS ⊢
        have hpre : stopOf pre = offsetOf data + payloadSize data := by
          simp only [clipStart] at hab hle
          omega
        have hlast := h.last
        rw [hS, hpre] at hlast
        refine mem_union_left _ (hlast ?_)
        rintro rfl
        simp only [stop_nil] at hpre
        omega
    · rw [hstop.2 hn]
      have hlast := h.last
      rw [hS] at hlast
      refine mem_union_left _ (hlast fun hnil => hn ?_)
      simp [(List.append_eq_nil_iff.mp hnil).2]
  · -- the size of `message_`
    have hle := hc.le
    simp only [TpMessage.store]
    rcases hmlen with ⟨hn, -, h₂⟩ | ⟨hn, h₁, h₂⟩ | ⟨hn, h₂⟩
    · rw [hstop.1 hn, h₂]
    · rw [List.head?_eq_none_iff.mp hn, List.append_nil] at hlen
      rw [hstop.1 hn, h₂]
      omega
    · rw [hstop.2 hn, h₂, hlen]
  · -- the bytes
    intro k hk
    simp only [TpMessage.store] at hk ⊢
    rw [List.map_append, List.map_singleton]
    by_cases hold : k ∈ covered (pre ++ post)
    · rw [hbytes.2 k hold, hcontent k hold, firstAt_concat_of_mem (hspans ▸ hold)]
    · rw [hcov, mem_union, or_iff_right hold, mem_Ico] at hk
      rw [hbytes.1 k hk.1 hk.2, firstAt_concat_of_not_mem (hspans ▸ hold),
        at?_pieceOf (hc.lower.trans hk.1)]

/-- The header update does not touch the payload. -/
theorem getElem?_completedMessage {message : List UInt8} {i : ℕ} (h : 16 ≤ message.length)
    (hi : 16 ≤ i) : (completedMessage message data)[i]? = message[i]? := by
  have hlen : (overwrite message 4 (uint32Bytes (message.length - 8))).length = message.length :=
    length_overwrite (by rw [length_uint32Bytes]; omega)
  unfold completedMessage
  rw [getElem?_overwrite_of_not_mem (by rw [hlen]; simpa using h) (Or.inr (by simpa using hi)),
    getElem?_overwrite_of_not_mem (by rw [length_uint32Bytes]; omega)
      (Or.inr (by rw [length_uint32Bytes]; omega))]

variable {m' : TpMessage}

namespace TpMessage

/-- Completing the message keeps what it holds. -/
theorem Holds.finish (h : m.Holds A) (hf : m.finish data = .ok (ret, m')) : m'.Holds A := by
  have hlayout := h.layout.finish hf
  rcases finish_eq_ok hf with ⟨-, -, -, hlen, rfl⟩ | ⟨-, rfl, -⟩
  · refine ⟨hlayout, h.nonempty, h.spans, h.last, ?_, fun k hk => ?_⟩
    · simpa only [length_completedMessage hlen] using h.length
    · simp only [getElem?_completedMessage hlen (Nat.le_add_right 16 k)]
      exact h.content k hk
  · exact h

/-- **Every step keeps what the object holds**, and no step fails.
Source: `tp_message.cpp`, `add_segment` -/
theorem Holds.addSegment (h : m.Holds A) (hw : m.TakesWhole data) :
    ∃ ret m', m.addSegment data = .ok (ret, m') ∧
      m'.Holds (if m.Accepts data then A ++ [data] else A) := by
  rcases h.layout.addSegment_cases hw.admits with ⟨hacc, heq⟩ | ⟨hacc, pre, post, p, hst, heq⟩
  · rw [if_neg hacc]
    exact ⟨false, m, heq, h⟩
  · have hstore := h.store (hw hacc) hst
    have hlen : 16 ≤ (m.store data p).message_.length := by
      rw [hstore.length]
      exact Nat.le_add_right _ _
    obtain ⟨ret, m', hf⟩ := finish_isOk data hlen
    rw [if_pos hacc]
    exact ⟨ret, m', heq.trans hf, hstore.finish hf⟩

/-- What a first datagram of at least 20 bytes leaves, accepted or not. -/
theorem Holds.new {max : ℕ} {now : ℤ} (hlen : 20 ≤ data.length)
    (hw : (blank max now).TakesWhole data) : (TpMessage.new data max now).Holds
      (if (blank max now).Accepts data then [data] else []) := by
  have hlayout := Layout.new hw.admits
  by_cases hacc : (blank max now).Accepts data
  · have hwhole : Whole [] (offsetOf data) (payloadSize data) := hw hacc
    have hpos := hwhole.nonempty
    have hdata := length_eq_payloadSize hlen
    obtain ⟨base, hmsg, hbase, -⟩ := new_message hacc hwhole.fits
    have hS := new_segments hacc hwhole.toAdmissible
    have hstop : stopOf (TpMessage.new data max now).segments_ =
        offsetOf data + payloadSize data := by
      rw [hS]
      simp only [stopOf, stop, List.getLast?_singleton, Option.map_some, Option.getD_some]
      omega
    have hcov : ∀ k, k ∈ covered (TpMessage.new data max now).segments_ ↔
        k ∈ (pieceOf data).range := by
      intro k
      rw [hS, mem_range_pieceOf, endOf]
      simp only [covered, offsets_cons, offsets_nil, union_empty, mem_Icc]
      omega
    rw [if_pos hacc]
    refine ⟨hlayout, by simpa using hpos, ?_, fun _ => ?_, ?_, fun k hk => ?_⟩
    · ext k
      simp [hcov, mem_span]
    · rw [hcov, hstop, mem_range_pieceOf, endOf]
      omega
    · rw [hmsg, hstop, List.length_append, hbase, Buffer.length_slice (by omega)]
      omega
    · obtain ⟨h₁, h₂⟩ := mem_range_pieceOf.mp ((hcov k).mp hk)
      rw [endOf] at h₂
      rw [List.map_singleton, firstAt_singleton, at?_pieceOf h₁, hmsg,
        List.getElem?_append_right (by omega), hbase, Buffer.getElem?_slice (by omega)]
      congr 1
      omega
  · rw [if_neg hacc]
    rw [new_of_not_accepts hacc, if_neg (by omega)] at hlayout ⊢
    refine ⟨hlayout, by simp, by simp [blank, span], by simp [blank], ?_,
      by simp [blank]⟩
    simp [blank, length_messageHeader hlen]

/-- The size counter counts the header and the covered offsets. -/
def Counted (m : TpMessage) : Prop :=
  m.segments_ ≠ [] ∧ m.currentMessageSize_ = 16 + (covered m.segments_).card

/-- The completeness check changes only `message_`. -/
theorem Counted.finish (h : m.Counted) (hf : m.finish data = .ok (ret, m')) : m'.Counted := by
  rcases finish_eq_ok hf with ⟨-, -, -, -, rfl⟩ | ⟨-, rfl, -⟩
  · exact h
  · exact h

/-- Each branch adds to the counter what it adds to the segments. -/
theorem Counted.addSegment (h : m.Counted) (hlayout : m.Layout) (ha : m.Admits data)
    (hs : m.addSegment data = .ok (ret, m')) : m'.Counted := by
  rcases hlayout.addSegment_cases ha with ⟨-, heq⟩ | ⟨hacc, pre, post, p, hst, heq⟩
  · rw [heq] at hs
    cases hs
    exact h
  · rw [heq] at hs
    refine Counted.finish ⟨?_, ?_⟩ hs
    · have hS := hst.gap.split
      rcases hst.placed.segments_cases hst.clip (hS ▸ hlayout.ordered) with hseg | ⟨-, hmem, hseg⟩
      · simp [store, hseg]
      · simpa only [store, hseg] using List.ne_nil_of_mem hmem
    · have hlayout' :=
        hlayout.store hst.gap.split hst.placed hst.clip (ha hacc).fits hst.length
      have hbound := hlayout'.card_le.trans_lt (Nat.lt_sub_of_add_lt (by
        rw [Nat.add_comm]
        exact hlayout'.stop_lt))
      have hcard := hst.placed.card_segments hst.clip (hst.gap.split ▸ hlayout.ordered)
      have hsize := h.2
      rw [hst.gap.split] at hsize
      simp only [store] at hbound ⊢
      rw [hst.placed.grown, hsize, u32_of_lt (by omega)]
      omega

/-- The constructor counts header and payload. -/
theorem Counted.new {max : ℕ} {now : ℤ} (hacc : (blank max now).Accepts data)
    (hadm : Admissible [] (offsetOf data) (payloadSize data)) : (new data max now).Counted := by
  have hfits := hadm.fits
  have hproper := hadm.proper
  have hsize : (TpMessage.new data max now).currentMessageSize_ = 16 + payloadSize data := by
    rw [new_of_accepts hacc]
    exact u32_of_lt (by omega)
  unfold Counted
  rw [hsize, new_segments hacc hadm]
  simp only [covered, offsets_cons, offsets_nil, union_empty, Nat.card_Icc]
  exact ⟨by simp, by omega⟩

end TpMessage

end invariant

/-! ### First arrival wins -/

/-- **The representation of a message that is being received**, given the pieces `A` that were
accepted so far: the intervals are disjoint, `current_message_size_` counts the header and the
covered offsets, `message_` ends with the greatest covered offset, and the byte of a covered offset
is the one that the first piece with this offset carried. -/
structure TpMessage.Represents (m : TpMessage) (A : List (Piece UInt8)) : Prop where
  disjoint : m.segments_.Pairwise fun x y =>
    Disjoint (Finset.Icc x.start_ x.end_) (Finset.Icc y.start_ y.end_)
  size : m.currentMessageSize_ = 16 + (covered m.segments_).card
  length : ∃ k, IsGreatest (covered m.segments_ : Set ℕ) k ∧ m.message_.length = 16 + k + 1
  content : ∀ k ∈ covered m.segments_, m.message_[16 + k]? = firstAt A k

theorem TpMessage.Holds.represents {m : TpMessage} {A : List (List UInt8)} (h : m.Holds A)
    (hc : m.Counted) : m.Represents (A.map pieceOf) := by
  refine ⟨?_, hc.2, ⟨stopOf m.segments_ - 1, ⟨h.last hc.1, fun k hk => ?_⟩, ?_⟩, h.content⟩
  · refine h.layout.ordered.chain.imp fun {x y} hxy => ?_
    rw [disjoint_left]
    intro k hx hy
    rw [mem_Icc] at hx hy
    omega
  · exact Nat.le_sub_one_of_lt (h.layout.ordered.lt_stop hk)
  · have hlt : stopOf m.segments_ - 1 < stopOf m.segments_ :=
      h.layout.ordered.lt_stop (h.last hc.1)
    rw [h.length]
    omega

/-- **First arrival wins**: for every first datagram that the constructor accepts and every sequence
of further ones, if each accepted segment is whole for the segments that are there when it arrives,
then every call of `add_segment` returns, and afterwards the object represents the accepted
datagrams.
Source: `tp_message.cpp`, `add_segment` -/
theorem addSegment_represents (first : List UInt8) (rest : List (List UInt8)) (max : ℕ) (now : ℤ)
    (haccept : (TpMessage.blank max now).Accepts first)
    (hfirst : Whole [] (offsetOf first) (payloadSize first))
    (hrest : AllSteps Reception.addSegment (fun t data => t.message.TakesWhole data)
      (Reception.start first max now) rest) : AllSteps Reception.addSegment
      (fun t data => ∃ ret t', t.addSegment data = .ok (ret, t') ∧
        t'.message.Represents (t'.accepted.map pieceOf)) (Reception.start first max now) rest := by
  have hstep : ∀ (t : Reception) (data : List UInt8) (ret : Bool) (t' : Reception),
      t.message.Holds t.accepted ∧ t.message.Counted → t.message.TakesWhole data →
      t.addSegment data = .ok (ret, t') →
      t'.message.Holds t'.accepted ∧ t'.message.Counted := by
    rintro t data ret t' ⟨hholds, hcount⟩ hw hs
    obtain ⟨hadd, hacc⟩ := Reception.addSegment_eq_ok.mp hs
    obtain ⟨ret', m', hadd', hholds'⟩ := hholds.addSegment hw
    rw [hadd, Except.ok.injEq, Prod.mk.injEq] at hadd'
    rw [hacc, hadd'.2]
    exact ⟨hholds', hadd'.2 ▸ hcount.addSegment hholds.layout hw.admits hadd⟩
  refine AllSteps.of_invariant (fun t => t.message.Holds t.accepted ∧ t.message.Counted) hstep
    (fun t data ht hw => ?_) ⟨?_, ?_⟩ hrest
  · obtain ⟨ret, m', hadd, -⟩ := ht.1.addSegment hw
    have hs : t.addSegment data = .ok (ret, ⟨m', _⟩) :=
      Reception.addSegment_eq_ok.mpr ⟨hadd, rfl⟩
    have ht' := hstep t data ret _ ht hw hs
    exact ⟨ret, _, hs, ht'.1.represents ht'.2⟩
  · exact TpMessage.Holds.new (TpMessage.blank_accepts.mp haccept).1 fun _ => hfirst
  · exact TpMessage.Counted.new haccept hfirst.toAdmissible

/-- A segment that reaches over one that is there already, and then one behind both. -/
theorem addSegment_represents_spanning : AllSteps Reception.addSegment
      (fun t data => ∃ ret t', t.addSegment data = .ok (ret, t') ∧
        t'.message.Represents (t'.accepted.map pieceOf))
      (Reception.start (requestSegment 32 false 16 1) 5000 0)
      [requestSegment 0 false 48 2, requestSegment 48 true 5 3] :=
  addSegment_represents _ _ _ _ (by decide +kernel) (by decide +kernel) (by decide +kernel)

/-- A segment `[0, 64)` around the one that is there, `[16, 32)`: the part from 32 on is dropped.
A third segment `[32, 48)` is then stored, although the second one had carried these offsets
before. -/
theorem addSegment_drops_tail :
    (∃ t, run Reception.addSegment (Reception.start (requestSegment 16 false 16 1) 5000 0)
        [requestSegment 0 false 64 2, requestSegment 32 false 16 3] = .ok ([false, false], t) ∧
      t.message.segments_ = [⟨0, 15⟩, ⟨16, 31⟩, ⟨32, 47⟩] ∧
      t.message.message_[16 + 32]? = some 3 ∧ firstAt (t.accepted.map pieceOf) 32 = some 2) ∧
    ¬ AllSteps Reception.addSegment (fun t data => ∃ ret t', t.addSegment data = .ok (ret, t') ∧
        t'.message.Represents (t'.accepted.map pieceOf))
      (Reception.start (requestSegment 16 false 16 1) 5000 0)
      [requestSegment 0 false 64 2, requestSegment 32 false 16 3] := by
  refine ⟨⟨_, rfl, rfl, rfl, rfl⟩, fun h => ?_⟩
  have h : AllSteps _ _ _ ([_] ++ [_]) := h
  obtain ⟨ret, t', hs, hrep⟩ := h.of_run_concat rfl
  obtain ⟨rfl, rfl⟩ := Prod.mk.inj (Except.ok.inj hs)
  have := hrep.content 32 (by decide +kernel)
  revert this
  decide +kernel

end SomeipTunnel.Tp
