import SomeipTunnel.Tp.Completion
import SomeipTunnel.Tp.Header

/-!
# Splitting and reassembling a message

The segments of `tp_split_message` tile the payload: they are disjoint, none of them is empty and
only the last one is final. A receiver that gets such segments in any order and any number of times
accepts each one once (`Collects.addSegment_new`), ignores its repetitions
(`Collects.addSegment_again`) and is done when it has them all (`complete_iff_forall_mem`). The
message it delivers then has the header of the message that was sent, by the header invariant, and
its payload, because the first arrival of an offset is the only one.

* `segmentAt_fields`: what the receiver reads in a segment.
* `Collects`: the invariant of a `tp_message` that has received some of the segments.
* `split_reassemble`: the round trip through a fresh reassembler.
-/

namespace SomeipTunnel.Tp

open Buffer Coverage List OrderedSet StepRun Table

/-! ### The segments of a message -/

/-- The messages and segment lengths of the round trip: a message that needs to be split, with a
correct length field and without the TP flag, and a segment length that is a multiple of 16 and not
larger than the receiver's limit. -/
structure Splittable (d : List UInt8) (L : ℕ) : Prop where
  long : 1416 ≤ d.length
  small : d.length < 2 ^ 32
  length : readUint32Be d 4 = d.length - 8
  type : tpFlagIsSet (byteAt d 14) = false
  aligned : L % 16 = 0
  lower : 16 ≤ L
  upper : L ≤ 1392

/-- The number of payload bytes of the segment `i`. -/
def segmentSize (d : List UInt8) (L i : ℕ) : ℕ := min L (d.length - (16 + i * L))

section fields

variable {d : List UInt8} {L i j : ℕ}

/-- The rounds of the loop: where a segment is, and which one is the last. -/
theorem Splittable.bounds (h : Splittable d L) (hi : i < segmentCount d L) :
    0 < segmentSize d L i ∧ segmentSize d L i ≤ L ∧ 16 + i * L + segmentSize d L i ≤ d.length ∧
      (d.length ≤ 16 + i * L + L → 16 + i * L + segmentSize d L i = d.length) ∧
      (¬ d.length ≤ 16 + i * L + L → segmentSize d L i = L) := by
  have hlong := h.long
  have hlower := h.lower
  have hlt := lt_of_lt_segmentCount (by omega : 16 < d.length) (by omega) hi
  unfold segmentSize
  exact ⟨by omega, by omega, by omega, by omega, by omega⟩

/-- **What a receiver reads in a segment.** -/
structure IsSegment (d : List UInt8) (L i : ℕ) (x : List UInt8) : Prop where
  length : x.length = 20 + segmentSize d L i
  offset : offsetOf x = i * L
  final : isFinal x = decide (d.length ≤ 16 + i * L + L)
  lengthField : readUint32Be x 4 = 12 + segmentSize d L i
  type : byteAt x 14 = tpFlagSet (byteAt d 14)
  header : ∀ k < 16, k < 4 ∨ 8 ≤ k → k ≠ 14 → x[k]? = d[k]?
  payload : ∀ k < segmentSize d L i, x[20 + k]? = d[16 + i * L + k]?

theorem segmentAt_fields (h : Splittable d L) (hi : i < segmentCount d L) :
    IsSegment d L i (segmentAt d L i) := by
  obtain ⟨-, -, hend, -, -⟩ := h.bounds hi
  have hsmall := h.small
  have h16 : 16 ≤ d.length := by omega
  have hslice : (slice d (16 + i * L) (min L (d.length - (16 + i * L)))).length =
      segmentSize d L i := length_slice hend
  have ho : i * L % 16 = 0 := by
    rw [Nat.mul_mod, h.aligned, Nat.mul_zero, Nat.zero_mod]
  obtain ⟨-, hoff, hmore⟩ := tpHeader_or ho (by omega : i * L < 2 ^ 32)
    (!decide (d.length ≤ 16 + i * L + L))
  have htp : readUint32Be (segmentAt d L i) 16 =
      i * L ||| if !decide (d.length ≤ 16 + i * L + L) then 1 else 0 :=
    readUint32Be_splitSegment_tp h16 ho (by omega)
  refine ⟨?_, ?_, ?_, ?_, byteAt_splitSegment_type h16,
    fun k hk hout h14 => getElem?_splitSegment_header h16 hout hk h14, fun k hk => ?_⟩
  · rw [segmentAt, length_splitSegment h16, hslice]
  · rw [offsetOf, htp, hoff]
  · rw [isFinal, htp, hmore, Bool.not_not]
  · rw [segmentAt, readUint32Be_splitSegment_length h16 (by rw [hslice]; omega), hslice]
  · rw [segmentAt, getElem?_splitSegment_payload h16]
    exact Buffer.getElem?_slice hk

end fields

section segment

variable {d x : List UInt8} {L i : ℕ}

theorem IsSegment.payloadSize (h : IsSegment d L i x) : payloadSize x = segmentSize d L i := by
  rw [Tp.payloadSize, h.length]
  omega

theorem IsSegment.endOf (h : IsSegment d L i x) : endOf x = i * L + segmentSize d L i := by
  rw [Tp.endOf, h.offset, h.payloadSize]

/-- All segments go to the entry of the message itself. -/
theorem IsSegment.messageIdOf (h : IsSegment d L i x) (hd : Splittable d L) :
    messageIdOf x = messageIdOf d := by
  have hpair : ∀ pos, pos + 1 < 4 ∨ 8 ≤ pos → pos + 1 < 14 →
      readUint16Be x pos = readUint16Be d pos := fun pos h₁ h₂ =>
    readUint16Be_congr fun k hk => h.header _ (by omega) (by omega) (by omega)
  rw [Tp.messageIdOf, Tp.messageIdOf, hpair 0 (by omega) (by omega),
    hpair 2 (by omega) (by omega), hpair 8 (by omega) (by omega),
    byteAt_eq_of_getElem? (h.header 13 (by omega) (by omega) (by omega)), h.type,
    tpFlagUnset_tpFlagSet _ hd.type, tpFlagUnset_of_not_set _ hd.type]

theorem IsSegment.sessionOf (h : IsSegment d L i x) : sessionOf x = sessionOf d :=
  readUint16Be_congr fun k hk => h.header _ (by omega) (by omega) (by omega)

/-- The length checks let a segment through as long as the message does not get too large. -/
theorem IsSegment.checkLengths (h : IsSegment d L i x) (hd : Splittable d L)
    (hi : i < segmentCount d L) {m : TpMessage} (hmax : d.length ≤ m.maxMessageSize_)
    (hroom : m.currentMessageSize_ + segmentSize d L i ≤ d.length) :
    m.checkLengths x (Tp.payloadSize x) (moreSegments (readUint32Be x 16)) = true := by
  obtain ⟨hpos, hle, hend, hlast, hmore⟩ := hd.bounds hi
  have hsmall := hd.small
  have hupper := hd.upper
  have hflag : tpFlagIsSet (byteAt x 14) = true := by
    rw [h.type, tpFlagIsSet_tpFlagSet]
  have hoff : getOffset (readUint32Be x 16) = i * L := h.offset
  have h16 : ¬ (moreSegments (readUint32Be x 16) = true ∧ segmentSize d L i % 16 > 0) := by
    rintro ⟨hm, hmod⟩
    have hfinal := h.final
    rw [isFinal, hm] at hfinal
    have := hmore (by simpa using hfinal)
    have haligned := hd.aligned
    rw [this] at hmod
    omega
  have hu₁ : u32 (12 + segmentSize d L i + 8) = 20 + segmentSize d L i := by
    rw [u32_of_lt (by omega)]
    omega
  have hu₂ : u32Sub (u32Sub (12 + segmentSize d L i) 4) 8 = segmentSize d L i := by
    have hinner : u32Sub (12 + segmentSize d L i) 4 = 8 + segmentSize d L i := by
      rw [u32Sub_of_le (by omega) (by omega)]
      omega
    rw [hinner, u32Sub_of_le (by omega) (by omega)]
    omega
  have hu₃ := u32_of_lt (by omega : m.currentMessageSize_ + segmentSize d L i < 2 ^ 32)
  have hu₄ := u32_of_lt (by omega : i * L + segmentSize d L i < 2 ^ 32)
  simp only [TpMessage.checkLengths, h.payloadSize, h.length, h.lengthField, hflag, hoff, hu₁, hu₂,
    hu₃, hu₄, h16, Bool.not_true, Bool.false_eq_true, if_false, ne_eq, not_true]
  rw [if_neg (by omega), if_neg (by omega), if_neg (by omega)]

end segment

/-! ### Segments that do not overlap -/

section apart

variable {S pre post : List Segment} {s size : ℕ} {m : TpMessage} {data : List UInt8}
  {p : Placement}

/-- A segment that overlaps none of those that are there is whole. -/
theorem whole_of_apart (hfits : 16 + s + size < 2 ^ 32) (hpos : 0 < size)
    (h : ∀ y ∈ S, y.start_ ≤ y.end_ ∧ (y.end_ < s ∨ s + size ≤ y.start_)) : Whole S s size where
  fits := hfits
  proper := by omega
  nonempty := hpos
  notInside := by
    intro y hy h₁ h₂
    have := h y hy
    omega
  noHole := by
    intro y hy h₁ h₂
    have := h y hy
    omega
  behind := by
    intro y hy hlt k hk
    have := h y hy
    rw [Finset.mem_Ico] at hk
    omega

/-- Such a segment is stored with all its bytes. -/
theorem TpMessage.Stores.segments_of_apart (hst : m.Stores data pre post p) (hord : m.Layout)
    (hfits : 16 + offsetOf data + payloadSize data < 2 ^ 32) (hpos : 0 < payloadSize data)
    (h : ∀ y ∈ m.segments_, y.start_ ≤ y.end_ ∧
      (y.end_ < offsetOf data ∨ offsetOf data + payloadSize data ≤ y.start_)) :
    p.segments = pre ++ ⟨offsetOf data, endOf data - 1⟩ :: post := by
  have hgap := hst.gap
  have hS := hgap.split
  rw [segmentOf_eq (by omega) (by omega)] at hgap
  have ha : clipStart (offsetOf data) pre = offsetOf data := by
    rcases hl : pre.getLast? with _ | q
    · simp [clipStart, stopOf_of_getLast?_none hl]
    · have hq := mem_of_mem_getLast? hl
      have h₁ := h q (hS ▸ mem_append_left _ hq)
      have h₂ := Segment.lt_eq_false.mp (hgap.pre_not q hq)
      simp only at h₂
      simp only [clipStart, stopOf_eq_of_getLast? hl]
      omega
  have hb : clipEnd (offsetOf data + payloadSize data) post = endOf data := by
    rcases hn : post.head? with _ | n
    · exact clipEnd_of_head?_none hn
    · have h₁ := h n (hS ▸ mem_append_right _ (mem_of_mem_head? hn))
      have h₂ := Segment.lt_eq_true.mp (hgap.next n hn)
      simp only at h₂
      rw [clipEnd_of_head? hn, endOf]
      omega
  have hcases := hst.placed.segments_cases hst.clip (hS ▸ hord.ordered)
  rw [ha, hb] at hcases
  rcases hcases with hseg | ⟨heq, -, -⟩
  · exact hseg
  · rw [endOf] at heq
    omega

end apart

section tiling

variable {d : List UInt8} {L i j : ℕ} {A : List (List UInt8)}

/-- The segments of a message do not overlap. -/
theorem segments_apart (hd : Splittable d L) (hi : i < segmentCount d L) (hij : i < j) :
    i * L + segmentSize d L i ≤ j * L := by
  have hle := (hd.bounds hi).2.1
  have hmul : (i + 1) * L ≤ j * L := Nat.mul_le_mul_right L hij
  rw [Nat.add_mul, Nat.one_mul] at hmul
  omega

/-- Each payload offset is in one of the segments. -/
theorem exists_segment (hd : Splittable d L) {k : ℕ} (hk : 16 + k < d.length) :
    ∃ i < segmentCount d L, i * L ≤ k ∧ k < i * L + segmentSize d L i := by
  have hlower := hd.lower
  obtain ⟨hpos, hend, -⟩ := segmentCount_spec (by omega : 16 < d.length) (by omega : 0 < L)
  have hdiv : k / L * L ≤ k := Nat.div_mul_le_self k L
  have hlt : k < k / L * L + L := by
    have := Nat.lt_div_mul_add (by omega : 0 < L) (a := k)
    omega
  refine ⟨k / L, ?_, hdiv, ?_⟩
  · rw [Nat.div_lt_iff_lt_mul (by omega)]
    omega
  · unfold segmentSize
    omega

/-- A segment is determined by its offset. -/
theorem segmentAt_inj (hd : Splittable d L) (hi : i < segmentCount d L) (hj : j < segmentCount d L)
    (h : segmentAt d L i = segmentAt d L j) : i = j := by
  have hlower := hd.lower
  have ho := (segmentAt_fields hd hi).offset
  rw [h, (segmentAt_fields hd hj).offset] at ho
  exact (Nat.eq_of_mul_eq_mul_right (by omega) ho).symm

/-- **The message is complete when all its segments have been accepted.** -/
theorem complete_iff_forall_mem (hd : Splittable d L)
    (hA : ∀ x ∈ A, ∃ i < segmentCount d L, x = segmentAt d L i) :
    Complete A ↔ ∀ i < segmentCount d L, segmentAt d L i ∈ A := by
  have hlong := hd.long
  have hlower := hd.lower
  have hrange : ∀ i < segmentCount d L, ∀ k, k ∈ (pieceOf (segmentAt d L i)).range ↔
      i * L ≤ k ∧ k < i * L + segmentSize d L i := by
    intro i hi k
    rw [mem_range_pieceOf, (segmentAt_fields hd hi).offset, (segmentAt_fields hd hi).endOf]
  constructor
  · rintro ⟨x, hx, hfinal, hspan⟩ i hi
    obtain ⟨j, hj, rfl⟩ := hA x hx
    rw [(segmentAt_fields hd hj).final, decide_eq_true_eq] at hfinal
    have hend := (hd.bounds hj).2.2.2.1 hfinal
    have hbi := hd.bounds hi
    -- the first offset of the segment `i` is covered by an accepted one, which starts there
    have hmem : i * L ∈ span (A.map pieceOf) := by
      rw [hspan, Finset.mem_range, (segmentAt_fields hd hj).endOf]
      omega
    obtain ⟨_, hc, hin⟩ := mem_span.mp hmem
    obtain ⟨y, hy, rfl⟩ := mem_map.mp hc
    obtain ⟨l, hl, rfl⟩ := hA y hy
    obtain ⟨h₁, h₂⟩ := (hrange l hl _).mp hin
    obtain hlt | rfl | hgt := Nat.lt_trichotomy l i
    · have := segments_apart hd hl hlt
      omega
    · exact hy
    · have := segments_apart hd hi hgt
      omega
  · intro hall
    obtain ⟨hpos, hend, -⟩ := segmentCount_spec (by omega : 16 < d.length) (by omega : 0 < L)
    have hlast : segmentCount d L - 1 < segmentCount d L := by omega
    have hfields := segmentAt_fields hd hlast
    have hmul : (segmentCount d L - 1) * L + L = segmentCount d L * L := by
      rw [Nat.sub_mul, Nat.one_mul]
      have := Nat.le_mul_of_pos_left L hpos
      omega
    have hreach : d.length ≤ 16 + (segmentCount d L - 1) * L + L := by omega
    have hstop := (hd.bounds hlast).2.2.2.1 hreach
    refine ⟨_, hall _ hlast, by rw [hfields.final, decide_eq_true_eq]; exact hreach, ?_⟩
    ext k
    rw [mem_span, Finset.mem_range, hfields.endOf]
    constructor
    · rintro ⟨_, hc, hin⟩
      obtain ⟨y, hy, rfl⟩ := mem_map.mp hc
      obtain ⟨l, hl, rfl⟩ := hA y hy
      have h₁ := ((hrange l hl _).mp hin).2
      have h₂ := (hd.bounds hl).2.2.1
      omega
    · intro hk
      obtain ⟨l, hl, h₁, h₂⟩ := exists_segment hd (by omega : 16 + k < d.length)
      exact ⟨_, mem_map_of_mem (hall l hl), (hrange l hl k).mpr ⟨h₁, h₂⟩⟩

end tiling

/-! ### The delivered message -/

section delivered

variable {d msg : List UInt8} {L i j : ℕ} {m : TpMessage} {A : List (List UInt8)}

/-- The header of the delivered message, from any two segments: one that started the message and
one that completed it. -/
theorem getElem?_completedMessage_segments (hd : Splittable d L) (hi : i < segmentCount d L)
    (hj : j < segmentCount d L) (hlen : msg.length = d.length)
    (hheader : msg.take 16 = messageHeader (segmentAt d L j)) {k : ℕ} (hk : k < 16) :
    (completedMessage msg (segmentAt d L i))[k]? = d[k]? := by
  have hlong := hd.long
  have hsmall := hd.small
  have hx := segmentAt_fields hd hi
  have hy := segmentAt_fields hd hj
  have hylen := hy.length
  have hclen : (completedMessage msg (segmentAt d L i)).length = msg.length :=
    length_completedMessage (by omega)
  obtain ⟨hlength, hreturn⟩ := completedMessage_fields (segmentAt d L i)
    (by omega : 16 ≤ msg.length) (by omega)
  by_cases h15 : k = 15
  · subst h15
    rw [getElem?_eq_some_byteAt (by omega), getElem?_eq_some_byteAt (by omega), hreturn,
      byteAt_eq_of_getElem? (hx.header 15 (by omega) (by omega) (by omega))]
  · by_cases h48 : 4 ≤ k ∧ k < 8
    · obtain ⟨l, rfl⟩ := Nat.exists_eq_add_of_le h48.1
      rw [← getElem?_uint32Bytes_readUint32Be (by omega) (by omega : l < 4), hlength, hlen,
        ← hd.length, getElem?_uint32Bytes_readUint32Be (by omega) (by omega)]
    · have hmsg : msg[k]? = (messageHeader (segmentAt d L j))[k]? := by
        rw [← hheader, List.getElem?_take, if_pos hk]
      rw [getElem?_completedMessage_header (by omega) (by omega) (by omega), hmsg]
      by_cases h14 : k = 14
      · subst h14
        rw [getElem?_eq_some_byteAt (by rw [length_messageHeader (by omega)]; omega),
          getElem?_eq_some_byteAt (by omega), byteAt_messageHeader_type (by omega), hy.type,
          tpFlagUnset_tpFlagSet _ hd.type]
      · rw [getElem?_messageHeader (by omega) hk h14, hy.header k hk (by omega) h14]

/-- Each segment carries the bytes of the message. -/
theorem firstAt_segments (hd : Splittable d L)
    (hA : ∀ x ∈ A, ∃ i < segmentCount d L, x = segmentAt d L i) {k : ℕ}
    (hk : k ∈ span (A.map pieceOf)) : firstAt (A.map pieceOf) k = d[16 + k]? := by
  refine firstAt_eq_of_forall hk fun c hc hin => ?_
  obtain ⟨x, hx, rfl⟩ := mem_map.mp hc
  obtain ⟨i, hi, rfl⟩ := hA x hx
  have hfields := segmentAt_fields hd hi
  rw [mem_range_pieceOf, hfields.offset, hfields.endOf] at hin
  rw [at?_pieceOf (by rw [hfields.offset]; exact hin.1), hfields.offset,
    hfields.payload _ (by omega)]
  congr 1
  omega

/-- **A completed message is the one that was split.** -/
theorem TpMessage.Holds.message_eq (h : m.Holds A) (hd : Splittable d L)
    (hi : i < segmentCount d L) (hj : j < segmentCount d L) (hcomplete : Complete A)
    (hA : ∀ x ∈ A, ∃ i < segmentCount d L, x = segmentAt d L i)
    (hmsg : m.message_ = completedMessage msg (segmentAt d L i))
    (hheader : msg.take 16 = messageHeader (segmentAt d L j)) (hfull : 16 ≤ msg.length) :
    m.message_ = d := by
  obtain ⟨f, hf, hfinal, hspan⟩ := hcomplete
  have hend : endOf f = d.length - 16 := by
    obtain ⟨l, hl, rfl⟩ := hA f hf
    rw [(segmentAt_fields hd hl).final, decide_eq_true_eq] at hfinal
    have := (hd.bounds hl).2.2.2.1 hfinal
    rw [(segmentAt_fields hd hl).endOf]
    omega
  have hlen : m.message_.length = d.length := by
    obtain ⟨c, hc, hstop⟩ := h.exists_endOf_eq (ne_nil_of_mem hf)
    obtain ⟨l, hl, rfl⟩ := hA c hc
    rw [(segmentAt_fields hd hl).endOf] at hstop
    have h₁ := (hd.bounds hl).2.2.1
    have h₂ := h.endOf_le hf
    rw [h.length]
    omega
  have hmlen : msg.length = d.length := by
    rw [← hlen, hmsg, length_completedMessage hfull]
  refine ext_getElem? fun k => ?_
  by_cases h16 : k < 16
  · rw [hmsg]
    exact getElem?_completedMessage_segments hd hi hj hmlen hheader h16
  · by_cases hk : k < d.length
    · obtain ⟨l, rfl⟩ := Nat.exists_eq_add_of_le (Nat.le_of_not_lt h16)
      have hmem : l ∈ span (A.map pieceOf) := by
        rw [hspan, Finset.mem_range, hend]
        omega
      rw [h.content l (h.spans ▸ hmem), firstAt_segments hd hA hmem]
    · rw [List.getElem?_eq_none (by omega), List.getElem?_eq_none (by omega)]

end delivered

/-! ### Collecting the segments -/

/-- **A message that has accepted the segments `A`** and nothing else. -/
structure Collects (d : List UInt8) (L : ℕ) (m : TpMessage) (A : List (List UInt8)) : Prop where
  tracks : Reception.Tracks ⟨m, A⟩
  counted : m.Counted
  headed : ∃ j < segmentCount d L, m.Headed (messageHeader (segmentAt d L j))
  tiles : ∀ y, y ∈ m.segments_ ↔ ∃ x ∈ A, y = ⟨offsetOf x, endOf x - 1⟩
  parts : ∀ x ∈ A, ∃ i < segmentCount d L, x = segmentAt d L i
  limit : d.length ≤ m.maxMessageSize_

section collecting

variable {d : List UInt8} {L i : ℕ} {m : TpMessage} {A : List (List UInt8)}

theorem Collects.parts_concat (h : Collects d L m A) (hi : i < segmentCount d L) :
    ∀ x ∈ A ++ [segmentAt d L i], ∃ j < segmentCount d L, x = segmentAt d L j := by
  intro x hx
  rcases mem_append.mp hx with hx | hx
  · exact h.parts x hx
  · exact ⟨i, hi, mem_singleton.mp hx⟩

/-- A segment that has not been accepted overlaps none of those that have. -/
theorem Collects.apart (h : Collects d L m A) (hd : Splittable d L) (hi : i < segmentCount d L)
    (hnew : segmentAt d L i ∉ A) : ∀ y ∈ m.segments_, y.start_ ≤ y.end_ ∧
      (y.end_ < i * L ∨ i * L + segmentSize d L i ≤ y.start_) := by
  intro y hy
  obtain ⟨x, hx, rfl⟩ := (h.tiles y).mp hy
  obtain ⟨j, hj, rfl⟩ := h.parts x hx
  have hpos := (hd.bounds hj).1
  simp only [(segmentAt_fields hd hj).offset, (segmentAt_fields hd hj).endOf]
  obtain hlt | rfl | hgt := Nat.lt_trichotomy i j
  · have := segments_apart hd hi hlt
    exact ⟨by omega, Or.inr this⟩
  · exact absurd hx hnew
  · have := segments_apart hd hj hgt
    exact ⟨by omega, Or.inl (by omega)⟩

/-- There is room for it. -/
theorem Collects.room (h : Collects d L m A) (hd : Splittable d L) (hi : i < segmentCount d L)
    (hnew : segmentAt d L i ∉ A) : m.currentMessageSize_ + segmentSize d L i ≤ d.length := by
  have hlong := hd.long
  have hdisj : Disjoint (covered m.segments_) (Finset.Ico (i * L) (i * L + segmentSize d L i)) := by
    rw [Finset.disjoint_left]
    intro k hk hin
    obtain ⟨y, hy, h₁, h₂⟩ := mem_offsets.mp hk
    have := h.apart hd hi hnew y hy
    rw [Finset.mem_Ico] at hin
    omega
  have hsub : covered m.segments_ ∪ Finset.Ico (i * L) (i * L + segmentSize d L i) ⊆
      Finset.range (d.length - 16) := by
    intro k hk
    rw [Finset.mem_range]
    rcases Finset.mem_union.mp hk with hk | hk
    · obtain ⟨y, hy, -, h₂⟩ := mem_offsets.mp hk
      obtain ⟨x, hx, rfl⟩ := (h.tiles y).mp hy
      obtain ⟨j, hj, rfl⟩ := h.parts x hx
      simp only [(segmentAt_fields hd hj).endOf] at h₂
      have := (hd.bounds hj).2.2.1
      omega
    · have := (hd.bounds hi).2.2.1
      rw [Finset.mem_Ico] at hk
      omega
  have hcard := Finset.card_le_card hsub
  rw [Finset.card_union_of_disjoint hdisj, Nat.card_Ico, Finset.card_range] at hcard
  rw [h.counted.2]
  omega

/-- The interval of a segment in the set. -/
theorem segmentOf_segmentAt (hd : Splittable d L) (hi : i < segmentCount d L) :
    segmentOf (offsetOf (segmentAt d L i)) (payloadSize (segmentAt d L i)) =
      ⟨offsetOf (segmentAt d L i), endOf (segmentAt d L i) - 1⟩ := by
  have hsmall := hd.small
  have hb := hd.bounds hi
  have hx := segmentAt_fields hd hi
  rw [endOf, segmentOf_eq (by rw [hx.offset, hx.payloadSize]; omega)
    (by rw [hx.offset, hx.payloadSize]; omega)]

/-- **A repetition changes nothing.** -/
theorem Collects.addSegment_again (h : Collects d L m A) (hd : Splittable d L)
    (hi : i < segmentCount d L) (hmem : segmentAt d L i ∈ A) :
    m.addSegment (segmentAt d L i) = .ok (false, m) := by
  refine TpMessage.addSegment_of_none (Option.eq_none_iff_forall_not_mem.mpr fun p hp => ?_)
  obtain ⟨-, -, pre, post, hemp, -⟩ := TpMessage.placement?_eq_some.mp hp
  rw [segmentOf_segmentAt hd hi,
    (emplace_eq_none_iff_mem h.tracks.1.layout.ordered).mpr ((h.tiles _).mpr ⟨_, hmem, rfl⟩)] at hemp
  cases hemp

/-- A segment is accepted when it comes for the first time. -/
theorem Collects.accepts_new (h : Collects d L m A) (hd : Splittable d L)
    (hi : i < segmentCount d L) (hnew : segmentAt d L i ∉ A) : m.Accepts (segmentAt d L i) := by
  have hx := segmentAt_fields hd hi
  have hlen := hx.length
  have hcheck := hx.checkLengths hd hi h.limit (h.room hd hi hnew)
  rcases hemp : emplace Segment.lt m.segments_ (segmentOf (offsetOf (segmentAt d L i))
      (payloadSize (segmentAt d L i))) with _ | ⟨pre, post⟩
  · -- the interval would be there, but no accepted segment overlaps it
    rw [segmentOf_segmentAt hd hi, emplace_eq_none_iff_mem h.tracks.1.layout.ordered] at hemp
    have hapart := h.apart hd hi hnew _ hemp
    have hpos := (hd.bounds hi).1
    rw [hx.offset, hx.endOf] at hapart
    simp only at hapart
    omega
  · exact Option.isSome_iff_exists.mpr
      ⟨_, TpMessage.placement?_eq_some.mpr ⟨by omega, hcheck, pre, post, hemp, rfl⟩⟩

/-- The next segment of a message that is not complete is orderly. -/
theorem Collects.orderly (h : Collects d L m A) (hd : Splittable d L) (hi : i < segmentCount d L)
    (hnew : segmentAt d L i ∉ A) (hnot : ¬ Complete A) :
    Reception.Orderly ⟨m, A⟩ (segmentAt d L i) := by
  have hsmall := hd.small
  have hx := segmentAt_fields hd hi
  have hb := hd.bounds hi
  refine ⟨hnot, fun _ => ?_, fun _ f hf hfinal x hx => ?_⟩
  · rw [hx.offset, hx.payloadSize]
    exact whole_of_apart (by omega) hb.1 (h.apart hd hi hnew)
  · obtain ⟨j, hj, rfl⟩ := h.parts_concat hi f hf
    obtain ⟨l, hl, rfl⟩ := h.parts_concat hi x hx
    rw [(segmentAt_fields hd hj).final, decide_eq_true_eq] at hfinal
    rw [(segmentAt_fields hd hj).endOf, (segmentAt_fields hd hl).endOf]
    have h₁ := (hd.bounds hj).2.2.2.1 hfinal
    have h₂ := (hd.bounds hl).2.2.1
    omega

/-- **A new segment** either leaves the message incomplete, or completes it, and then the message is
the one that was split. -/
theorem Collects.addSegment_new (h : Collects d L m A) (hd : Splittable d L)
    (hi : i < segmentCount d L) (hnew : segmentAt d L i ∉ A) (hnot : ¬ Complete A) :
    ∃ ret m', m.addSegment (segmentAt d L i) = .ok (ret, m') ∧
      (ret = true ↔ Complete (A ++ [segmentAt d L i])) ∧
      (ret = false → Collects d L m' (A ++ [segmentAt d L i])) ∧ (ret = true → m'.message_ = d) := by
  have ho := h.orderly hd hi hnew hnot
  have hacc := h.accepts_new hd hi hnew
  have hwhole : Whole m.segments_ _ _ := ho.whole hacc
  have hadmits : m.Admits (segmentAt d L i) := ho.whole.admits
  have hlayout := h.tracks.1.layout
  obtain ⟨ret, ⟨m', A'⟩, hs, htracks, hret⟩ := h.tracks.addSegment ho
  obtain ⟨hadd, hA⟩ := Reception.addSegment_eq_ok.mp hs
  rw [if_pos hacc] at hA
  subst hA
  refine ⟨ret, m', hadd, hret, ?_, ?_⟩
  all_goals
    obtain ⟨j, hj, hheaded⟩ := h.headed
    have hheader := hheaded.addSegment (fun _ => hwhole.fits) hadd
  · rintro rfl
    rcases hlayout.addSegment_cases hadmits with ⟨hn, -⟩ | ⟨-, pre, post, p, hst, heq⟩
    · exact absurd hacc hn
    · rcases TpMessage.finish_eq_ok (heq.symm.trans hadd) with ⟨hf, -⟩ | ⟨-, rfl, -⟩
      · cases hf
      · have hseg := hst.segments_of_apart hlayout hwhole.fits hwhole.nonempty (by
          rw [(segmentAt_fields hd hi).offset, (segmentAt_fields hd hi).payloadSize]
          exact h.apart hd hi hnew)
        refine ⟨htracks, h.counted.addSegment hlayout hadmits hadd, ⟨j, hj, by simpa using hheader⟩,
          fun y => ?_, h.parts_concat hi, h.limit⟩
        have htiles := h.tiles y
        rw [hst.gap.split, mem_append] at htiles
        simp only [TpMessage.store, hseg, mem_append, mem_cons, not_mem_nil, or_false,
          or_and_right, exists_or, exists_eq_left, ← htiles, or_assoc]
        exact or_congr_right or_comm
  · rintro rfl
    obtain ⟨msg, hmsg, htake, hfull, -⟩ := (hheader.resolve_left (by simp)).2
    exact htracks.1.message_eq hd hi hj (hret.mp rfl) (h.parts_concat hi) hmsg htake hfull

/-- The first segment to arrive. -/
theorem Collects.new {max : ℕ} (hd : Splittable d L) (hi : i < segmentCount d L)
    (hmax : d.length ≤ max) (now : ℤ) :
    Collects d L (TpMessage.new (segmentAt d L i) max now) [segmentAt d L i] := by
  have hsmall := hd.small
  have hx := segmentAt_fields hd hi
  have hlen := hx.length
  have hb := hd.bounds hi
  have hacc : (TpMessage.blank max now).Accepts (segmentAt d L i) := by
    refine TpMessage.blank_accepts.mpr ⟨by omega, hx.checkLengths hd hi hmax ?_⟩
    simp only [TpMessage.blank]
    omega
  have hwhole : Whole [] (offsetOf (segmentAt d L i)) (payloadSize (segmentAt d L i)) := by
    rw [hx.offset, hx.payloadSize]
    exact whole_of_apart (by omega) hb.1 (by simp)
  have htracks : (Reception.start (segmentAt d L i) max now).Tracks :=
    Reception.Tracks.start (by omega) fun _ => hwhole
  rw [Reception.start, if_pos hacc] at htracks
  refine ⟨htracks, TpMessage.Counted.new hacc hwhole.toAdmissible,
    ⟨i, hi, TpMessage.Headed.new (by omega) fun _ => hwhole.fits⟩, ?_, by simpa using ⟨i, hi, rfl⟩, ?_⟩
  · intro y
    rw [TpMessage.new_segments hacc hwhole.toAdmissible]
    simp [endOf]
  · rw [TpMessage.new_of_accepts hacc]
    exact hmax

end collecting

/-! ### The entry of the message -/

section entry

variable {d : List UInt8} {L i max : ℕ} {e : Option Entry} {seen A : List (List UInt8)}

/-- Every segment of the message is among `seen`. -/
def AllSeen (d : List UInt8) (L : ℕ) (seen : List (List UInt8)) : Prop :=
  ∀ i < segmentCount d L, segmentAt d L i ∈ seen

/-- **The entry after the segments `seen`**: there is none yet, or it has collected them. -/
def Gathers (d : List UInt8) (L : ℕ) (e : Option Entry) (seen : List (List UInt8)) : Prop :=
  (seen = [] ∧ e = none) ∨
    ∃ m A, e = some (sessionOf d, m) ∧ Collects d L m A ∧ ∀ x, x ∈ A ↔ x ∈ seen

/-- A message is split into at least two segments. -/
theorem Splittable.one_lt_segmentCount (hd : Splittable d L) : 1 < segmentCount d L := by
  have hlong := hd.long
  have hlower := hd.lower
  have hupper := hd.upper
  obtain ⟨hpos, hend, -⟩ := segmentCount_spec (by omega : 16 < d.length) (by omega : 0 < L)
  by_contra hle
  have h1 : segmentCount d L = 1 := by omega
  rw [h1] at hend
  omega

/-- So the first segment is not all of them. -/
theorem Splittable.not_allSeen_singleton (hd : Splittable d L) (x : List UInt8) :
    ¬ AllSeen d L [x] := by
  intro hall
  have h1 := hd.one_lt_segmentCount
  have heq := (mem_singleton.mp (hall 0 (by omega))).trans
    (mem_singleton.mp (hall 1 h1)).symm
  exact absurd (segmentAt_inj hd (by omega) h1 heq) (by omega)

theorem complete_iff_allSeen (hd : Splittable d L)
    (hparts : ∀ x ∈ A, ∃ i < segmentCount d L, x = segmentAt d L i)
    (hA : ∀ x, x ∈ A ↔ x ∈ seen) : Complete A ↔ AllSeen d L seen := by
  simp only [complete_iff_forall_mem hd hparts, AllSeen, hA]

/-- **The step lemma for the entry**: a segment that is not the last missing one is stored or
ignored, and the last missing one delivers the message and removes the entry. -/
theorem Gathers.entryStep (h : Gathers d L e seen) (hd : Splittable d L) (hmax : d.length ≤ max)
    (hnot : ¬ AllSeen d L seen) (hi : i < segmentCount d L) (now : ℤ) :
    ∃ out, entryStep max (segmentAt d L i) now e = .ok out ∧
      (¬ AllSeen d L (seen ++ [segmentAt d L i]) →
        out.1 = (false, []) ∧ Gathers d L out.2 (seen ++ [segmentAt d L i])) ∧
      (AllSeen d L (seen ++ [segmentAt d L i]) → out = ((true, d), none)) := by
  have hsession := (segmentAt_fields hd hi).sessionOf
  rcases h with ⟨rfl, rfl⟩ | ⟨m, A, rfl, hcollects, hA⟩
  · refine ⟨_, rfl, fun _ => ⟨rfl, Or.inr ⟨_, [segmentAt d L i], ?_, Collects.new hd hi hmax now,
      by simp⟩⟩, fun hall => absurd hall (hd.not_allSeen_singleton _)⟩
    rw [hsession]
  · simp only [Tp.entryStep, if_pos hsession.symm]
    by_cases hmem : segmentAt d L i ∈ A
    · -- a repetition
      have hsame : ∀ x, x ∈ seen ++ [segmentAt d L i] ↔ x ∈ seen := by
        intro x
        simp only [mem_append, mem_singleton, or_iff_left_iff_imp]
        rintro rfl
        exact (hA _).mp hmem
      rw [hcollects.addSegment_again hd hi hmem]
      refine ⟨_, rfl, fun _ => ⟨rfl, Or.inr ⟨m, A, rfl, hcollects, fun x => ?_⟩⟩, fun hall => ?_⟩
      · rw [hsame, hA]
      · exact absurd (fun j hj => (hsame _).mp (hall j hj)) hnot
    · have hA' : ∀ x, x ∈ A ++ [segmentAt d L i] ↔ x ∈ seen ++ [segmentAt d L i] := by
        simp [hA]
      have hincomplete : ¬ Complete A := by
        rwa [complete_iff_allSeen hd hcollects.parts hA]
      obtain ⟨ret, m', hadd, hret, hfalse, htrue⟩ :=
        hcollects.addSegment_new hd hi hmem hincomplete
      rw [complete_iff_allSeen hd (hcollects.parts_concat hi) hA'] at hret
      rw [hadd]
      refine ⟨_, rfl, fun hall => ?_, fun hall => ?_⟩
      · obtain rfl : ret = false := Bool.eq_false_iff.mpr fun hr => hall (hret.mp hr)
        exact ⟨rfl, Or.inr ⟨m', _, rfl, hfalse rfl, hA'⟩⟩
      · obtain rfl : ret = true := hret.mpr hall
        simp only [if_true, htrue rfl]

end entry

/-! ### The round trip -/

section reassembly

variable {Address : Type*} [DecidableEq Address] {d : List UInt8} {L i max : ℕ}
  {address : Address} {port : UInt16} {r : TpReassembler Address} {seen : List (List UInt8)}

/-- A datagram and the time of its arrival, from one sender. -/
def arrival (address : Address) (port : UInt16) (p : List UInt8 × ℤ) : Event Address :=
  .segment p.1 address port p.2

/-- **The reassembler has received the segments `seen`** from a sender. -/
def Receiving (d : List UInt8) (L max : ℕ) (address : Address) (port : UInt16)
    (r : TpReassembler Address) (seen : List (List UInt8)) : Prop :=
  r.maxMessageSize_ = max ∧ Gathers d L (get₃ r.tpMessages_ (keyOf d address port)) seen

/-- **The step lemma.**
Source: `tp_reassembler.cpp`, `process_tp_message` -/
theorem Receiving.step (h : Receiving d L max address port r seen)
    (hd : Splittable d L) (hmax : d.length ≤ max) (hnot : ¬ AllSeen d L seen)
    (hi : i < segmentCount d L) (now : ℤ) : (¬ AllSeen d L (seen ++ [segmentAt d L i]) →
      ∃ r', r.step (arrival address port (segmentAt d L i, now)) = .ok (.result false [], r') ∧
        Receiving d L max address port r' (seen ++ [segmentAt d L i])) ∧
    (AllSeen d L (seen ++ [segmentAt d L i]) →
      ∃ r', r.step (arrival address port (segmentAt d L i, now)) = .ok (.result true d, r') ∧
        get₃ r'.tpMessages_ (keyOf d address port) = none) := by
  have hx := segmentAt_fields hd hi
  have hkey : keyOf (segmentAt d L i) address port = keyOf d address port := by
    rw [keyOf, hx.messageIdOf hd, keyOf]
  obtain ⟨hlimit, hgathers⟩ := h
  obtain ⟨out, hout, hmore, hlast⟩ := hgathers.entryStep hd hmax hnot hi now
  rw [← hkey, ← hlimit] at hout
  have hstep := (TpReassembler.step_segment_eq_ok (by rw [hx.length]; omega)).mpr
    ⟨out, hout, rfl, rfl⟩
  refine ⟨fun hall => ?_, fun hall => ?_⟩
  · obtain ⟨hfalse, hnext⟩ := hmore hall
    rw [hfalse] at hstep
    refine ⟨_, hstep, hlimit, ?_⟩
    rwa [hkey, get₃_set₃, if_pos rfl]
  · rw [hlast hall] at hstep
    refine ⟨_, hstep, ?_⟩
    rw [hkey, get₃_set₃, if_pos rfl]

/-- **The run lemma**: as long as a segment is missing, every call answers `(false, empty)`. -/
theorem Receiving.run (hd : Splittable d L) (hmax : d.length ≤ max)
    (arrivals : List (List UInt8 × ℤ)) (h : Receiving d L max address port r seen)
    (hsegs : ∀ p ∈ arrivals, ∃ i < segmentCount d L, p.1 = segmentAt d L i)
    (hnot : ¬ AllSeen d L (seen ++ arrivals.map Prod.fst)) :
    ∃ r', run TpReassembler.step r (arrivals.map (arrival address port)) =
        .ok (List.replicate arrivals.length (.result false []), r') ∧
      Receiving d L max address port r' (seen ++ arrivals.map Prod.fst) := by
  induction arrivals generalizing r seen with
  | nil => exact ⟨r, rfl, by simpa using h⟩
  | cons p arrivals ih =>
      obtain ⟨x, now⟩ := p
      obtain ⟨i, hi, rfl⟩ : ∃ i < segmentCount d L, x = segmentAt d L i :=
        hsegs _ mem_cons_self
      have hassoc : seen ++ ((segmentAt d L i, now) :: arrivals).map Prod.fst =
          seen ++ [segmentAt d L i] ++ arrivals.map Prod.fst := by simp
      rw [hassoc] at hnot ⊢
      have hmiss : ¬ AllSeen d L (seen ++ [segmentAt d L i]) := fun hall =>
        hnot fun j hj => mem_append_left _ (hall j hj)
      obtain ⟨r₁, hs, h₁⟩ := (h.step hd hmax (fun hall => hmiss fun j hj =>
        mem_append_left _ (hall j hj)) hi now).1 hmiss
      obtain ⟨r', hrun, h'⟩ := ih h₁ (fun p hp => hsegs p (mem_cons_of_mem _ hp)) hnot
      exact ⟨r', run_cons_eq_ok.mpr ⟨_, _, _, hs, hrun, rfl⟩, h'⟩

/-- **The round trip of a segmented message.** Whatever segments of a message arrive from one
sender, in whatever order and how often, a fresh reassembler whose limit is not below the size of the
message answers `(false, empty)` as long as a segment is missing, and at the first arrival of the
last missing one it answers the message and has no entry left for it.
Source: `tp.cpp`, `tp_split_message`; `tp_reassembler.cpp`, `process_tp_message`;
`tp_message.cpp` -/
theorem split_reassemble (d : List UInt8) (L max : ℕ) (address : Address) (port : UInt16)
    (hd : Splittable d L) (hmax : d.length ≤ max) : ∃ segs, tpSplitMessage d L = some segs ∧
      ∀ arrivals : List (List UInt8 × ℤ), (∀ p ∈ arrivals, p.1 ∈ segs) →
        ¬ segs ⊆ arrivals.map Prod.fst →
        ∃ r, run TpReassembler.step (TpReassembler.new max) (arrivals.map (arrival address port)) =
            .ok (List.replicate arrivals.length (.result false []), r) ∧
          ∀ x ∈ segs, ∀ now, segs ⊆ arrivals.map Prod.fst ++ [x] →
            ∃ r', r.step (arrival address port (x, now)) = .ok (.result true d, r') ∧
              get₃ r'.tpMessages_ (keyOf x address port) = none := by
  have hlong := hd.long
  have hlower := hd.lower
  have hmem : ∀ x, x ∈ (List.range (segmentCount d L)).map (segmentAt d L) ↔
      ∃ i < segmentCount d L, x = segmentAt d L i := by
    simp [eq_comm]
  have hall : ∀ seen, (List.range (segmentCount d L)).map (segmentAt d L) ⊆ seen ↔
      AllSeen d L seen := by
    simp [subset_def, AllSeen]
  refine ⟨_, tpSplitMessage_eq_some hlong (by omega), fun arrivals hsegs hmissing => ?_⟩
  simp only [hmem, hall] at hsegs hmissing ⊢
  have hnew : Receiving d L max address port (TpReassembler.new max) [] :=
    ⟨rfl, Or.inl ⟨rfl, TpReassembler.get₃_new max _⟩⟩
  obtain ⟨r, hrun, hr⟩ := Receiving.run hd hmax arrivals hnew hsegs (by simpa using hmissing)
  refine ⟨r, hrun, ?_⟩
  rintro x ⟨i, hi, rfl⟩ now hlast
  obtain ⟨r', hs, hgone⟩ := (hr.step hd hmax (by simpa using hmissing) hi now).2 (by simpa using hlast)
  refine ⟨r', hs, ?_⟩
  rwa [keyOf, (segmentAt_fields hd hi).messageIdOf hd]

end reassembly

/-- The smallest message that is split, at the smallest limit that lets it through. -/
theorem split_reassemble_smallest :
    ∃ segs, tpSplitMessage (requestMessage 1400 7) 1392 = some segs ∧
      ∀ arrivals : List (List UInt8 × ℤ), (∀ p ∈ arrivals, p.1 ∈ segs) →
        ¬ segs ⊆ arrivals.map Prod.fst →
        ∃ r, run TpReassembler.step (TpReassembler.new 1416) (arrivals.map (arrival 1 30509)) =
            .ok (List.replicate arrivals.length (.result false []), r) ∧
          ∀ x ∈ segs, ∀ now, segs ⊆ arrivals.map Prod.fst ++ [x] →
            ∃ r', r.step (arrival 1 30509 (x, now)) =
                .ok (.result true (requestMessage 1400 7), r') ∧
              get₃ r'.tpMessages_ (keyOf x 1 30509) = none :=
  split_reassemble (requestMessage 1400 7) 1392 1416 1 30509
    ⟨by decide +kernel, by decide +kernel, by decide +kernel, by decide +kernel, by decide,
      by decide, by decide⟩ (by decide +kernel)

end SomeipTunnel.Tp
