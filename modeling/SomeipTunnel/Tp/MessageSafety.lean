import SomeipTunnel.Tp.Placement
import SomeipTunnel.Tp.Split

/-!
# Memory safety of `add_segment`

Whether a copy stays inside of `message_` depends on how `message_` and the segments fit together.
`TpMessage.Layout` is that invariant: the segments are ordered and disjoint, and `message_` reaches
up to every segment behind a hole, but not behind the last one. The constructor establishes it and
every step with an admissible segment keeps it.

* `TpMessage.placement?_eq_some`: when a datagram is accepted, and which branch it selects.
* `TpMessage.Layout.addSegment_cases`: what `add_segment` does under the invariant.
* `TpMessage.Layout.store`: storing a part keeps the invariant.
* `addSegment_copies_safe`: in every run over admissible segments all copies are safe.
-/

namespace SomeipTunnel.Tp

open Buffer Coverage OrderedSet StepRun List

/-! ### Datagrams -/

/-- The payload offset that a datagram announces. -/
def offsetOf (data : List UInt8) : ℕ := getOffset (readUint32Be data 16)

/-- The number of payload bytes of a datagram. -/
def payloadSize (data : List UInt8) : ℕ := data.length - 16 - 4

/-- The datagram passes the length checks and its interval is not there yet. -/
def TpMessage.Accepts (m : TpMessage) (data : List UInt8) : Prop := (m.placement? data).isSome

instance (m : TpMessage) (data : List UInt8) : Decidable (m.Accepts data) :=
  inferInstanceAs (Decidable (_ = true))

/-- If the datagram is accepted, its segment is one that the branches are meant for. -/
def TpMessage.Admits (m : TpMessage) (data : List UInt8) : Prop :=
  m.Accepts data → Admissible m.segments_ (offsetOf data) (payloadSize data)

instance (m : TpMessage) (data : List UInt8) : Decidable (m.Admits data) :=
  inferInstanceAs (Decidable (_ → _))

variable {data : List UInt8} {m m' : TpMessage} {p : Placement} {ret : Bool}

namespace TpMessage

/-- The branch of an accepted datagram: its lengths fit and the gap of its interval is found. -/
theorem placement?_eq_some : m.placement? data = some p ↔ 20 ≤ data.length ∧
        m.checkLengths data (payloadSize data) (moreSegments (readUint32Be data 16)) = true ∧
        ∃ pre post, emplace Segment.lt m.segments_
            (segmentOf (offsetOf data) (payloadSize data)) = some (pre, post) ∧
          m.place (offsetOf data) (payloadSize data) pre post = p := by
  unfold placement?
  simp only [offsetOf, payloadSize]
  by_cases hlen : data.length < 20
  · simp only [hlen, if_true]
    constructor
    · intro h
      cases h
    · rintro ⟨h, -⟩
      omega
  · simp only [hlen, if_false]
    split_ifs with hcheck
    · have h20 : 20 ≤ data.length := by omega
      split
      · rename_i h
        simp [h]
      · rename_i pre post h
        simp [h, h20, hcheck]
    · simp [hcheck]

/-- A datagram that is not accepted changes nothing. -/
theorem addSegment_of_none (h : m.placement? data = none) : m.addSegment data = .ok (false, m) := by
  simp only [addSegment, h]

/-- A copy inside the buffers is made. -/
theorem addSegment_of_inBounds (h : m.placement? data = some p)
    (hin : p.copy.InBounds data.length) : m.addSegment data = (m.store data p).finish data := by
  simp only [addSegment, h, hin, if_true]

/-- Any other copy is a fault. -/
theorem addSegment_of_not_inBounds (h : m.placement? data = some p)
    (hin : ¬ p.copy.InBounds data.length) : m.addSegment data = .error (.copy p.copy) := by
  simp only [addSegment, h, hin, if_false]

end TpMessage

/-! ### The header update -/

/-- `message_` with its length and return code fields set.
Source: `tp_message.cpp`, lines 206–210 -/
def completedMessage (message data : List UInt8) : List UInt8 :=
  overwrite (overwrite message 4 (uint32Bytes (message.length - 8))) 15 [byteAt data 15]

theorem length_completedMessage {message : List UInt8} (h : 16 ≤ message.length) :
    (completedMessage message data).length = message.length := by
  have hlen : (overwrite message 4 (uint32Bytes (message.length - 8))).length = message.length :=
    length_overwrite (by rw [length_uint32Bytes]; omega)
  unfold completedMessage
  rw [length_overwrite (by rw [hlen]; simpa using h), hlen]

/-- What `finish` answers: completion with the header update, or the object as it is. -/
theorem TpMessage.finish_eq_ok (h : m.finish data = .ok (ret, m')) :
    (ret = true ∧ m.lastSegmentReceived_ = true ∧
        scanComplete (2 ^ 32 - 1) m.segments_ = true ∧ 16 ≤ m.message_.length ∧
        m' = { m with message_ := completedMessage m.message_ data }) ∨
      (ret = false ∧ m' = m ∧
        (m.lastSegmentReceived_ && scanComplete (2 ^ 32 - 1) m.segments_) = false) := by
  unfold TpMessage.finish at h
  split_ifs at h with hdone hlen
  · left
    simp only [Bool.and_eq_true] at hdone
    simp only [Except.ok.injEq, Prod.mk.injEq] at h
    exact ⟨h.1.symm, hdone.1, hdone.2, by omega, h.2.symm⟩
  · right
    simp only [Except.ok.injEq, Prod.mk.injEq] at h
    exact ⟨h.1.symm, h.2.symm, by simpa using hdone⟩

/-- With a header in `message_` the completeness check does not fail. -/
theorem TpMessage.finish_isOk (data : List UInt8) (h : 16 ≤ m.message_.length) :
    ∃ ret m', m.finish data = .ok (ret, m') := by
  unfold TpMessage.finish
  split_ifs with hdone hlen
  · omega
  · exact ⟨_, _, rfl⟩
  · exact ⟨_, _, rfl⟩

/-! ### The layout invariant -/

/-- Where a segment is behind a hole, `message_` of size `n` reaches up to its start; `e` is the
offset behind the segment before. -/
def HolesBelow (n : ℕ) : ℕ → List Segment → Prop
  | _, [] => True
  | e, y :: S => (e < y.start_ → 16 + y.start_ ≤ n) ∧ HolesBelow n (y.end_ + 1) S

theorem holesBelow_append {n e : ℕ} {S T : List Segment} :
    HolesBelow n e (S ++ T) ↔ HolesBelow n e S ∧ HolesBelow n (stop Segment.end_ e S) T := by
  induction S generalizing e with
  | nil => simp [HolesBelow]
  | cons y S ih => simp only [cons_append, HolesBelow, ih, stop_cons, and_assoc]

/-- A larger `message_` and a later start leave fewer holes to reach. -/
theorem HolesBelow.mono {n n' e e' : ℕ} {S : List Segment} (h : HolesBelow n e S) (hn : n ≤ n')
    (he : e ≤ e') : HolesBelow n' e' S := by
  induction S generalizing e e' with
  | nil => trivial
  | cons y S ih =>
      refine ⟨fun hlt => ?_, ih h.2 le_rfl⟩
      have := h.1 (by omega)
      omega

/-- **The invariant behind the copies**: the segments are ordered and below the 32-bit limit, and
`message_` reaches up to every segment behind a hole, but not behind the last segment. It does not
say that `message_` starts with a header: after a first datagram that is too short it does not. -/
structure TpMessage.Layout (m : TpMessage) : Prop where
  ordered : OrderedSegments m.segments_
  bound : ∀ y ∈ m.segments_, y.end_ + 17 < 2 ^ 32
  holes : HolesBelow m.message_.length 0 m.segments_
  size : m.message_.length ≤ 16 + stopOf m.segments_

section layout

variable {m : TpMessage} {s size a b : ℕ} {pre post : List Segment} {p : Placement}
  {data : List UInt8}

/-- Where something is stored in front of a segment, `message_` reaches up to that segment. -/
theorem TpMessage.Layout.room (h : m.Layout) (hS : m.segments_ = pre ++ post)
    (hc : Clip pre post s size a b) (hn : post.head? ≠ none) (hab : stopOf pre < b) :
    16 + b ≤ m.message_.length := by
  obtain ⟨n, hn⟩ := Option.ne_none_iff_exists'.mp hn
  obtain ⟨ys, rfl⟩ := List.head?_eq_some_iff.mp hn
  have hholes := h.holes
  rw [hS, holesBelow_append] at hholes
  have h₁ := hc.post_ge n mem_cons_self
  have h₂ := hholes.2.1 (hab.trans_le h₁)
  omega

/-- The copy of an admissible segment is in bounds. -/
theorem TpMessage.Layout.inBounds (h : m.Layout) (hS : m.segments_ = pre ++ post)
    (hp : Placed m s a b pre post p) (hc : Clip pre post s size a b)
    (hdata : data.length = 20 + size) : p.copy.InBounds data.length :=
  hp.inBounds hc hdata fun hn hab => h.room hS hc hn (hc.stop_le.trans_lt hab)

/-- The size of `message_` behind a placement. -/
theorem TpMessage.Layout.length_message (h : m.Layout) (hS : m.segments_ = pre ++ post)
    (hp : Placed m s a b pre post p) (hc : Clip pre post s size a b)
    (hdata : data.length = 20 + size) :
    (post.head? = none ∧ stopOf pre < a ∧ (p.message data).length = 16 + b) ∨
      (post.head? = none ∧ stopOf pre = a ∧ (p.message data).length = m.message_.length + (b - a)) ∨
      (post.head? ≠ none ∧ (p.message data).length = m.message_.length) := by
  have hle := hc.le
  by_cases hn : post.head? = none
  · obtain ⟨base, hmsg, hbase⟩ := hp.message_atEnd data hn
    rw [hmsg, length_append, hp.length_slice hc hdata]
    rcases hbase with ⟨rfl, ha⟩ | ⟨rfl, ha⟩
    · exact Or.inr (Or.inl ⟨hn, ha.symm, rfl⟩)
    · refine Or.inl ⟨hn, ha, ?_⟩
      rw [length_resize]
      omega
  · refine Or.inr (Or.inr ⟨hn, ?_⟩)
    have hlen := hp.length_slice hc hdata
    rw [hp.message_middle hc hdata hn]
    by_cases hab : a = b
    · have hnil : slice data p.copy.src.toNat p.copy.count = [] := by
        apply eq_nil_of_length_eq_zero
        omega
      rw [hnil, overwrite_nil]
    · have := h.room hS hc hn (by have := hc.stop_le; omega)
      exact length_overwrite (by omega)

/-- A placement does not shorten `message_`. -/
theorem TpMessage.Layout.length_le_message (h : m.Layout) (hS : m.segments_ = pre ++ post)
    (hp : Placed m s a b pre post p) (hc : Clip pre post s size a b)
    (hdata : data.length = 20 + size) : m.message_.length ≤ (p.message data).length := by
  have hsize := h.size
  have hle := hc.le
  rw [hS] at hsize
  rcases h.length_message hS hp hc hdata with ⟨hn, h₁, h₂⟩ | ⟨-, -, h₂⟩ | ⟨-, h₂⟩
  · rw [List.head?_eq_none_iff.mp hn, append_nil] at hsize
    omega
  · omega
  · omega

/-- The segments behind a placement: the stored part in its gap, or unchanged if it is empty and
already there. -/
theorem Placed.segments_cases (hp : Placed m s a b pre post p) (hc : Clip pre post s size a b)
    (hord : OrderedSegments (pre ++ post)) : p.segments = pre ++ ⟨a, b - 1⟩ :: post ∨
      (a = b ∧ ⟨a, b - 1⟩ ∈ pre ++ post ∧ p.segments = pre ++ post) := by
  rw [hp.segments]
  exact insert_between hord hc.le hc.pos hc.pre_lt hc.post_ge

/-- An empty part that is already there is not behind the last segment. -/
theorem Clip.stop_eq_of_mem (hc : Clip pre [] s size a a) (hord : OrderedSegments pre)
    (hmem : (⟨a, a - 1⟩ : Segment) ∈ pre) : stopOf pre = a := by
  have h₁ : a - 1 < stopOf pre := hord.hi_lt_stop hmem
  have h₂ := hc.stop_le
  omega

/-- Where the segments stop behind a placement: at the end of the stored part if nothing is behind
it, and otherwise where they stopped before. -/
theorem Placed.stop_segments (hp : Placed m s a b pre post p) (hc : Clip pre post s size a b)
    (hord : OrderedSegments (pre ++ post)) : (post.head? = none → stopOf p.segments = b) ∧
      (post.head? ≠ none → stopOf p.segments = stopOf (pre ++ post)) := by
  have hpos := hc.pos
  rcases hp.segments_cases hc hord with hseg | ⟨rfl, hmem, hseg⟩
  · refine ⟨fun hn => ?_, fun hn => ?_⟩
    · rw [hseg, List.head?_eq_none_iff.mp hn]
      simp only [stopOf, stop_concat]
      omega
    · obtain ⟨n, hn⟩ := Option.ne_none_iff_exists'.mp hn
      obtain ⟨ys, rfl⟩ := List.head?_eq_some_iff.mp hn
      simp only [hseg, stopOf, stop_append_cons, stop_cons]
  · refine ⟨fun hn => ?_, fun _ => by rw [hseg]⟩
    rw [List.head?_eq_none_iff.mp hn] at hc hmem hord hseg
    rw [append_nil] at hmem hord hseg
    rw [hseg, hc.stop_eq_of_mem hord hmem]

namespace TpMessage

/-- **The step lemma**: storing an admissible segment keeps the layout. -/
theorem Layout.store (h : m.Layout) (hS : m.segments_ = pre ++ post)
    (hp : Placed m s a b pre post p) (hc : Clip pre post s size a b)
    (hfits : 16 + s + size < 2 ^ 32) (hdata : data.length = 20 + size) :
    (m.store data p).Layout := by
  have hord := h.ordered
  have hbound := h.bound
  have hholes := h.holes
  have hsize := h.size
  have hlen := h.length_message hS hp hc hdata
  have hle := hc.le
  have hpos := hc.pos
  have hstop := hc.stop_le
  have hupper := hc.upper
  rw [hS] at hord hbound hholes hsize
  have hgrow := h.length_le_message hS hp hc hdata
  rcases hp.segments_cases hc hord with hseg | ⟨rfl, hmem, hseg⟩
  · refine ⟨?_, fun y hy => ?_, ?_, ?_⟩
    · simp only [TpMessage.store, hseg]
      refine hord.insert (by simp only; omega) hc.pre_lt fun y hy => ?_
      have := hc.post_ge y hy
      simp only
      omega
    · simp only [TpMessage.store, hseg, mem_append, mem_cons] at hy
      rcases hy with hy | rfl | hy
      · exact hbound y (mem_append_left _ hy)
      · simp only
        omega
      · exact hbound y (mem_append_right _ hy)
    · simp only [TpMessage.store, hseg]
      rw [holesBelow_append] at hholes ⊢
      refine ⟨hholes.1.mono hgrow le_rfl, fun hlt => ?_, hholes.2.mono hgrow ?_⟩
      · simp only at hlt ⊢
        rcases hlen with ⟨-, -, h₂⟩ | ⟨-, h₁, -⟩ | ⟨hn, h₂⟩
        · omega
        · simp only [stopOf] at h₁
          omega
        · have := h.room hS hc hn (by simp only [stopOf]; omega)
          omega
      · simp only [stopOf] at hstop ⊢
        omega
    · have hstop' := hp.stop_segments hc hord
      simp only [TpMessage.store]
      rcases hlen with ⟨hn, h₁, h₂⟩ | ⟨hn, h₁, h₂⟩ | ⟨hn, h₂⟩
      · rw [hstop'.1 hn, h₂]
      · rw [List.head?_eq_none_iff.mp hn, append_nil] at hsize
        rw [hstop'.1 hn, h₂]
        omega
      · rw [hstop'.2 hn, h₂]
        exact hsize
  · have hkeep : (p.message data).length = m.message_.length := by
      rcases hlen with ⟨hn, h₁, -⟩ | ⟨-, -, h₂⟩ | ⟨-, h₂⟩
      · rw [List.head?_eq_none_iff.mp hn] at hc hmem hord
        rw [append_nil] at hmem hord
        have := hc.stop_eq_of_mem hord hmem
        omega
      · omega
      · exact h₂
    exact ⟨by simpa only [store, hseg] using hord,
      by simpa only [store, hseg] using hbound,
      by simpa only [store, hseg, hkeep] using hholes,
      by simpa only [store, hseg, hkeep] using hsize⟩

end TpMessage

theorem length_eq_payloadSize (h : 20 ≤ data.length) : data.length = 20 + payloadSize data := by
  unfold payloadSize
  omega

namespace TpMessage

/-- How an accepted datagram is stored: the gap of its interval, and the part of its segment that
goes there. -/
structure Stores (m : TpMessage) (data : List UInt8) (pre post : List Segment)
    (p : Placement) : Prop where
  gap : Gap Segment.lt m.segments_ (segmentOf (offsetOf data) (payloadSize data)) pre post
  clip : Clip pre post (offsetOf data) (payloadSize data) (clipStart (offsetOf data) pre)
    (clipEnd (offsetOf data + payloadSize data) post)
  placed : Placed m (offsetOf data) (clipStart (offsetOf data) pre)
    (clipEnd (offsetOf data + payloadSize data) post) pre post p
  length : data.length = 20 + payloadSize data

/-- An accepted datagram of an admissible segment is stored. -/
theorem stores_of_admits (hord : OrderedSegments m.segments_) (ha : m.Admits data)
    (hp : m.placement? data = some p) : ∃ pre post, m.Stores data pre post p := by
  have hadm := ha (by simp [Accepts, hp])
  obtain ⟨hlen, -, pre, post, hemp, rfl⟩ := placement?_eq_some.mp hp
  have hgap := emplace_eq_some hemp
  exact ⟨pre, post, hgap, clip_of_gap hord hadm hgap, m.place_placed hord hadm hgap,
    length_eq_payloadSize hlen⟩

/-- **What `add_segment` does** with an admissible segment: nothing if it is not accepted, and
otherwise the stored part is copied and the completeness is checked. -/
theorem Layout.addSegment_cases (h : m.Layout) (ha : m.Admits data) :
    (¬ m.Accepts data ∧ m.addSegment data = .ok (false, m)) ∨
      (m.Accepts data ∧ ∃ pre post p, m.Stores data pre post p ∧
        m.addSegment data = (m.store data p).finish data) := by
  rcases hp : m.placement? data with _ | p
  · exact Or.inl ⟨by simp [Accepts, hp], addSegment_of_none hp⟩
  · obtain ⟨pre, post, hst⟩ := m.stores_of_admits h.ordered ha hp
    have hin := h.inBounds hst.gap.split hst.placed hst.clip hst.length
    exact Or.inr ⟨by simp [Accepts, hp], pre, post, p, hst,
      addSegment_of_inBounds hp hin⟩

/-- The header update does not change the layout. -/
theorem Layout.finish (h : m.Layout) (hf : m.finish data = .ok (ret, m')) : m'.Layout := by
  rcases finish_eq_ok hf with ⟨-, -, -, hlen, rfl⟩ | ⟨-, rfl, -⟩
  · refine ⟨h.ordered, h.bound, ?_, ?_⟩
    · simpa only [length_completedMessage hlen] using h.holes
    · simpa only [length_completedMessage hlen] using h.size
  · exact h

/-- **Every step keeps the layout.**
Source: `tp_message.cpp`, `add_segment` -/
theorem Layout.addSegment (h : m.Layout) (ha : m.Admits data)
    (hs : m.addSegment data = .ok (ret, m')) : m'.Layout := by
  rcases h.addSegment_cases ha with ⟨-, heq⟩ | ⟨hacc, pre, post, p, hst, heq⟩
  · rw [heq] at hs
    cases hs
    exact h
  · rw [heq] at hs
    exact (h.store hst.gap.split hst.placed hst.clip (ha hacc).fits hst.length).finish hs

/-- With a header in `message_`, a step with an admissible segment returns. -/
theorem Layout.addSegment_isOk (h : m.Layout) (hlen : 16 ≤ m.message_.length) (ha : m.Admits data) :
    ∃ ret m', m.addSegment data = .ok (ret, m') ∧ m'.Layout ∧ 16 ≤ m'.message_.length := by
  rcases h.addSegment_cases ha with ⟨-, heq⟩ | ⟨hacc, pre, post, p, hst, heq⟩
  · exact ⟨false, m, heq, h, hlen⟩
  · have hgrow := h.length_le_message hst.gap.split hst.placed hst.clip hst.length
    have hlayout := h.store hst.gap.split hst.placed hst.clip (ha hacc).fits hst.length
    have hlen' : 16 ≤ (m.store data p).message_.length := hlen.trans hgrow
    obtain ⟨ret, m', hf⟩ := finish_isOk data hlen'
    refine ⟨ret, m', heq.trans hf, hlayout.finish hf, ?_⟩
    rcases finish_eq_ok hf with ⟨-, -, -, -, rfl⟩ | ⟨-, rfl, -⟩
    · rwa [length_completedMessage hlen']
    · exact hlen'

end TpMessage

end layout

/-! ### The constructor -/

section constructor

variable {data : List UInt8} {max : ℕ} {now : ℤ}

theorem length_messageHeader (h : 20 ≤ data.length) : (messageHeader data).length = 16 := by
  unfold messageHeader
  rw [length_overwrite] <;> simp <;> omega

namespace TpMessage

/-- The constructor accepts what `add_segment` of an empty object would accept. -/
theorem blank_accepts : (blank max now).Accepts data ↔
      20 ≤ data.length ∧ (blank max now).checkLengths data (payloadSize data)
        (moreSegments (readUint32Be data 16)) = true := by
  unfold Accepts
  rw [Option.isSome_iff_exists]
  simp only [placement?_eq_some]
  constructor
  · rintro ⟨p, h₁, h₂, -⟩
    exact ⟨h₁, h₂⟩
  · rintro ⟨h₁, h₂⟩
    exact ⟨_, h₁, h₂, [], [], rfl, rfl⟩

/-- The object built from an accepted datagram. -/
theorem new_of_accepts (h : (blank max now).Accepts data) :
    new data max now =
      { blank max now with
        segments_ := [segmentOf (offsetOf data) (payloadSize data)]
        lastSegmentReceived_ :=
          offsetOf data ≠ 0 && !moreSegments (readUint32Be data 16)
        message_ := (if offsetOf data ≠ 0 then
            resize (messageHeader data) (u32 (16 + offsetOf data)) 0 else messageHeader data) ++
          slice data 20 (payloadSize data)
        currentMessageSize_ := u32 (16 + payloadSize data) } := by
  obtain ⟨h₁, h₂⟩ := blank_accepts.mp h
  have hlen : ¬ data.length < 20 := by omega
  simp only [payloadSize] at h₂
  simp only [new, hlen, if_false, h₂, if_true, offsetOf, payloadSize]
  rfl

/-- The object built from a datagram that is not accepted holds at most its header. -/
theorem new_of_not_accepts (h : ¬ (blank max now).Accepts data) :
    new data max now =
      { blank max now with
        message_ := if data.length < 20 then [] else messageHeader data } := by
  rw [blank_accepts, not_and] at h
  by_cases hlen : data.length < 20
  · simp only [new, hlen, if_true, blank]
  · have h₂ := h (by omega)
    simp only [payloadSize] at h₂
    simp only [new, hlen, if_false, h₂]
    simp

theorem new_segments (h : (blank max now).Accepts data)
    (hadm : Admissible [] (offsetOf data) (payloadSize data)) : (new data max now).segments_ =
      [⟨offsetOf data, offsetOf data + payloadSize data - 1⟩] := by
  have hfits := hadm.fits
  rw [new_of_accepts h, ← segmentOf_eq hadm.proper (by omega)]

/-- `message_` of an object built from an accepted datagram: the header, filled up to the offset,
and the payload. -/
theorem new_message (h : (blank max now).Accepts data)
    (hfits : 16 + offsetOf data + payloadSize data < 2 ^ 32) :
    ∃ base, (new data max now).message_ = base ++ slice data 20 (payloadSize data) ∧
      base.length = 16 + offsetOf data ∧ base.take 16 = messageHeader data := by
  have hheader := length_messageHeader (blank_accepts.mp h).1
  rw [new_of_accepts h]
  refine ⟨_, rfl, ?_, ?_⟩
  · split_ifs with h0
    · rw [length_resize, u32_of_lt (by omega)]
    · rw [hheader]
      omega
  · split_ifs with h0
    · rw [take_resize (by omega) (by rw [u32_of_lt (by omega)]; omega)]
      exact take_of_length_le (by omega)
    · exact take_of_length_le (by omega)

/-- The constructor establishes the layout. -/
theorem Layout.new (ha : (blank max now).Admits data) : (TpMessage.new data max now).Layout := by
  by_cases hacc : (blank max now).Accepts data
  · have hadm : Admissible [] (offsetOf data) (payloadSize data) := ha hacc
    have hdata := length_eq_payloadSize (blank_accepts.mp hacc).1
    have hfits := hadm.fits
    have hS := new_segments hacc hadm
    obtain ⟨base, hmsg, hbase, -⟩ := new_message hacc hfits
    have hlen : (TpMessage.new data max now).message_.length =
        16 + (offsetOf data + payloadSize data) := by
      rw [hmsg, length_append, hbase, Buffer.length_slice (by omega)]
      omega
    refine ⟨?_, ?_, ?_, ?_⟩
    · rw [hS]
      exact ⟨by simp; omega, by simp⟩
    · rw [hS]
      simp only [mem_singleton, forall_eq]
      omega
    · rw [hS, hlen]
      exact ⟨fun _ => by simp only; omega, trivial⟩
    · rw [hS, hlen]
      simp only [stopOf, stop, List.getLast?_singleton, Option.map_some, Option.getD_some]
      omega
  · rw [new_of_not_accepts hacc]
    refine ⟨⟨by simp [blank], by simp [blank]⟩, by simp [blank],
      trivial, ?_⟩
    simp only [blank, stopOf, stop_nil]
    split_ifs with hlen
    · simp
    · rw [length_messageHeader (by omega)]

/-- A first datagram of at least 20 bytes leaves a header. -/
theorem length_message_new (hlen : 20 ≤ data.length) (ha : (blank max now).Admits data) :
    16 ≤ (new data max now).message_.length := by
  by_cases hacc : (blank max now).Accepts data
  · obtain ⟨base, hmsg, hbase, -⟩ := new_message hacc (ha hacc).fits
    rw [hmsg, length_append]
    omega
  · rw [new_of_not_accepts hacc, if_neg (by omega), length_messageHeader hlen]

end TpMessage

end constructor

/-! ### Memory safety -/

/-- Every byte that is read is a payload byte of the datagram, every byte that is written is inside
`message_`, and the count is the one without wrap-around. -/
def Copy.Safe (c : Copy) (dataLength : ℕ) : Prop :=
  (c.count : ℤ) = c.exact ∧ ∀ k < c.count, 20 ≤ c.src + k ∧ c.src + k < dataLength ∧
    c.dst + k < c.room

theorem Copy.InBounds.safe {c : Copy} {dataLength : ℕ} (h : c.InBounds dataLength) :
    c.Safe dataLength := by
  refine ⟨h.1, fun k hk => ?_⟩
  rcases h.2 with h0 | ⟨h₁, h₂, h₃⟩
  · omega
  · omega

/-- **`add_segment` is memory-safe on admissible segments**: for every first datagram and every
sequence of further ones, if each accepted segment is admissible for the segments that are there
when it arrives, then every `insert` and `memcpy` reads only payload bytes of the datagram at hand,
writes only inside `message_`, and has a count that did not wrap around.
Source: `tp_message.cpp`, `add_segment` -/
theorem addSegment_copies_safe (first : List UInt8) (rest : List (List UInt8)) (max : ℕ) (now : ℤ)
    (hfirst : (TpMessage.blank max now).Admits first)
    (hrest : AllSteps TpMessage.addSegment TpMessage.Admits (TpMessage.new first max now) rest) :
    AllSteps TpMessage.addSegment
      (fun m data => ∀ p, m.placement? data = some p → p.copy.Safe data.length)
      (TpMessage.new first max now) rest := by
  refine AllSteps.of_invariant TpMessage.Layout (fun m data ret m' h ha hs => h.addSegment ha hs)
    (fun m data h ha p hp => ?_) (TpMessage.Layout.new hfirst) hrest
  obtain ⟨pre, post, hst⟩ := m.stores_of_admits h.ordered ha hp
  exact (h.inBounds hst.gap.split hst.placed hst.clip hst.length).safe

/-- The copies of a message in three segments, the second of which overlaps the first. -/
theorem addSegment_copies_safe_overlapping : AllSteps TpMessage.addSegment
      (fun m data => ∀ p, m.placement? data = some p → p.copy.Safe data.length)
      (TpMessage.new (requestSegment 0 false 48 1) 5000 0)
      [requestSegment 32 false 32 2, requestSegment 64 true 5 3] :=
  addSegment_copies_safe _ _ _ _ (by decide +kernel) (by decide +kernel)

/-- A segment inside the one that is there: `operator<` puts it in front of that one, and the count
`seg_next->start_ - its_offset` of the `memcpy` wraps around. -/
theorem addSegment_nested_not_safe :
    ((TpMessage.new (requestSegment 0 false 48 1) 5000 0).placement?
        (requestSegment 16 false 16 2)).map (·.copy) = some ⟨32, 20, 4294967280, -16, 64⟩ ∧
      ¬ AllSteps TpMessage.addSegment
        (fun m data => ∀ p, m.placement? data = some p → p.copy.Safe data.length)
        (TpMessage.new (requestSegment 0 false 48 1) 5000 0) [requestSegment 16 false 16 2] := by
  have hcopy : ((TpMessage.new (requestSegment 0 false 48 1) 5000 0).placement?
      (requestSegment 16 false 16 2)).map (·.copy) = some ⟨32, 20, 4294967280, -16, 64⟩ := by
    decide +kernel
  refine ⟨hcopy, fun h => ?_⟩
  obtain ⟨p, hp, hc⟩ := Option.map_eq_some_iff.mp hcopy
  have hsafe := (h.1 p hp).1
  rw [hc] at hsafe
  norm_num at hsafe

end SomeipTunnel.Tp
