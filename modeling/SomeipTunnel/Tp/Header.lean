import SomeipTunnel.Tp.MessageSafety
import SomeipTunnel.Tp.Reassembler

/-!
# The header of a reassembled message

A message that is delivered has the header of the datagram that started it, with the length and the
return code of the datagram that completed it. The header survives every step because no copy
writes below index 16 of `message_`; this is shown for arbitrary segments, not only for admissible
ones, as long as the copies stay in bounds.

Two things can go wrong. A datagram of 16 to 19 bytes starts a message without putting a header into
`message_`. And at the end of the 32-bit range `VSOMEIP_FULL_HEADER_SIZE + its_offset` wraps around,
so that `resize` cuts the header off. `TpMessage.Fits` excludes the second, the condition that a
message is started by a datagram with a TP header the first.

* `TpMessage.Headed.store`: every branch of `add_segment` keeps the header.
* `completed_header_follows`: whenever a run delivers a message, its header is that of the segment
  that completed it.
-/

namespace SomeipTunnel.Tp

open Buffer Coverage OrderedSet StepRun Table List

/-- If the datagram is accepted, the message stays below the 32-bit limit. -/
def TpMessage.Fits (m : TpMessage) (data : List UInt8) : Prop :=
  m.Accepts data → 16 + offsetOf data + payloadSize data < 2 ^ 32

instance (m : TpMessage) (data : List UInt8) : Decidable (m.Fits data) :=
  inferInstanceAs (Decidable (_ → _))

/-- **`message_` starts with `header`** and does not reach behind the last segment. -/
structure TpMessage.Headed (m : TpMessage) (header : List UInt8) : Prop where
  header : m.message_.take 16 = header
  full : 16 ≤ m.message_.length
  small : m.message_.length < 2 ^ 32
  reach : m.message_.length ≤ 16 + stopOf m.segments_

/-! ### What every branch keeps -/

section branches

variable {m : TpMessage} {s size : ℕ} {pre post : List Segment} {p : Placement}
  {header data : List UInt8}

/-- A `memcpy` in bounds that does not start below index 16 keeps the size and the header. -/
theorem Placement.message_middle (hend : p.atEnd = false) (hroom : p.copy.room = p.base.length)
    (hin : p.copy.InBounds data.length) (hdst : 0 < p.copy.count → 16 ≤ p.copy.dst) :
    (p.message data).length = p.base.length ∧ (p.message data).take 16 = p.base.take 16 := by
  simp only [Placement.message, hend, Bool.false_eq_true, if_false]
  by_cases h0 : p.copy.count = 0
  · rw [h0, slice_zero, overwrite_nil]
    exact ⟨rfl, rfl⟩
  · obtain ⟨h₁, h₂, h₃⟩ := hin.2.resolve_left h0
    have hlen : (slice data p.copy.src.toNat p.copy.count).length = p.copy.count :=
      length_slice (by omega)
    exact ⟨length_overwrite (by omega), take_overwrite (hdst (by omega)) (by omega)⟩

/-- An `insert` at the end. -/
theorem Placement.message_atEnd (data : List UInt8) (hend : p.atEnd = true)
    (hbase : 16 ≤ p.base.length) : (p.message data).length ≤ p.base.length + p.copy.count ∧
      (p.message data).take 16 = p.base.take 16 := by
  simp only [Placement.message, hend, if_true, length_append]
  exact ⟨Nat.add_le_add_left length_slice_le _, take_append_of_le_length hbase⟩

/-- Putting an interval into the set does not move the stop to the front. -/
theorem stopOf_le_stopOf_insert (S : List Segment) (x : Segment) :
    stopOf S ≤ stopOf (OrderedSet.insert Segment.lt S x) := by
  rcases insert_cases Segment.lt S x with h | ⟨pre, post, hgap, h⟩
  · rw [h]
  · rw [h, hgap.split]
    rcases post with _ | ⟨n, post⟩
    · rw [append_nil, stopOf, stopOf, stop_concat]
      rcases hl : pre.getLast? with _ | q
      · simp [stop, hl]
      · have := Segment.lt_eq_false.mp (hgap.pre_not q (mem_of_mem_getLast? hl))
        simp only [stop, hl, Option.map_some, Option.getD_some]
        omega
    · simp only [stopOf, stop_append_cons, stop_cons, le_refl]

/-- The interval of a segment reaches up to its end, also if it is empty. -/
theorem le_end_segmentOf (h : s + size < 2 ^ 32) : s + size ≤ (segmentOf s size).end_ + 1 := by
  simp only [segmentOf, u32_of_lt h]
  unfold u32Sub
  omega

/-- An interval that starts behind all starts and ends behind all ends is put behind them. -/
theorem stopOf_insert_of_behind {S : List Segment} {x : Segment}
    (h : ∀ y ∈ S, y.start_ < x.start_ ∧ y.end_ ≤ x.end_) :
    stopOf (OrderedSet.insert Segment.lt S x) = x.end_ + 1 := by
  have hgap : Gap Segment.lt S x S [] := by
    refine ⟨(append_nil S).symm, fun y hy => ?_, by simp, fun q hq => ?_⟩
    · have := h y hy
      rw [Segment.lt_eq_false]
      omega
    · have := h q (mem_of_mem_getLast? hq)
      rw [Segment.lt_eq_true]
      omega
  rw [insert_of_gap hgap, stopOf, stop_concat]

namespace TpMessage

/-- The segment goes behind all others: what is appended to, and how far it reaches then. -/
theorem Headed.placeLast_base (h : m.Headed header) (hfits : 16 + s + size < 2 ^ 32)
    (hgap : Gap Segment.lt m.segments_ (segmentOf s size) pre [])
    (hin : (m.placeLast s size pre).copy.InBounds data.length) :
    (m.placeLast s size pre).atEnd = true ∧ ((m.placeLast s size pre).base = m.message_ ∨
        (m.placeLast s size pre).base = resize m.message_ (16 + s) 0) ∧
      (m.placeLast s size pre).base.length + (m.placeLast s size pre).copy.count ≤ 16 + s + size ∧
      s + size ≤ stopOf (m.placeLast s size pre).segments := by
  have hend := le_end_segmentOf (by omega : s + size < 2 ^ 32)
  have hu : u32 (16 + s) = 16 + s := u32_of_lt (by omega)
  have hcount : (size + 2 ^ 64 - 0) % 2 ^ 64 = size := by omega
  have hstart : (segmentOf s size).start_ = s := rfl
  have hreach := h.reach
  rw [hgap.split, append_nil] at hreach
  unfold placeLast at hin ⊢
  rcases hl : pre.getLast? with _ | prev
  · rw [stopOf_of_getLast?_none hl] at hreach
    simp only [hu, insertCopy, hcount]
    have hstop : stopOf [segmentOf s size] = (segmentOf s size).end_ + 1 := rfl
    by_cases h0 : s = 0
    · simp only [h0, ne_eq, not_true, if_false] at hstop hend ⊢
      exact ⟨trivial, Or.inl trivial, by omega, hend.trans hstop.ge⟩
    · simp only [h0, ne_eq, not_false_iff, if_true]
      exact ⟨trivial, Or.inr trivial, by rw [length_resize], hend.trans hstop.ge⟩
  · rw [stopOf_eq_of_getLast? hl] at hreach
    simp only [hl, hstart] at hin ⊢
    by_cases hlt : prev.end_ < s
    · have hp : u32 (prev.end_ + 1) = prev.end_ + 1 := u32_of_lt (by omega)
      simp only [hlt, if_true, hu, hp, insertCopy, hcount, stopOf, stop_concat]
      by_cases hd : prev.end_ + 1 = s
      · simp only [hd, ne_eq, not_true, if_false]
        exact ⟨trivial, Or.inl trivial, by omega, hend⟩
      · simp only [hd, ne_eq, not_false_iff, if_true]
        exact ⟨trivial, Or.inr trivial, by rw [length_resize], hend⟩
    · simp only [hlt, if_false, insertCopy] at hin ⊢
      -- the count did not wrap around, so the segment ends behind the previous one
      have hexact := hin.1
      simp only at hexact
      have hp : u32 (prev.end_ + 1) = prev.end_ + 1 := u32_of_lt (by omega)
      refine ⟨trivial, Or.inl trivial, by omega, ?_⟩
      rw [stopOf_insert_of_behind]
      · exact hend
      · intro y hy
        have := Segment.lt_eq_false.mp (hgap.pre_not y hy)
        rw [hp]
        simp only
        omega

theorem Headed.placeLast (h : m.Headed header) (hfits : 16 + s + size < 2 ^ 32)
    (hgap : Gap Segment.lt m.segments_ (segmentOf s size) pre [])
    (hin : (m.placeLast s size pre).copy.InBounds data.length) :
    (m.store data (m.placeLast s size pre)).Headed header := by
  obtain ⟨hend, hbase, hlen, hstop⟩ := h.placeLast_base hfits hgap hin
  have hkeep : (m.placeLast s size pre).base.take 16 = header ∧
      16 ≤ (m.placeLast s size pre).base.length := by
    rcases hbase with hb | hb
    · rw [hb]
      exact ⟨h.header, h.full⟩
    · rw [hb, take_resize h.full (by omega), length_resize]
      exact ⟨h.header, by omega⟩
  obtain ⟨h₁, h₂⟩ := Placement.message_atEnd data hend hkeep.2
  have hfull : 16 ≤ ((m.placeLast s size pre).message data).length := by
    have := congrArg List.length h₂
    rw [length_take, length_take] at this
    omega
  exact ⟨h₂.trans hkeep.1, hfull, by simp only [store]; omega,
    by simp only [store]; omega⟩

/-- A branch that copies into the middle. -/
theorem Headed.store_middle (h : m.Headed header) (hend : p.atEnd = false)
    (hbase : p.base = m.message_) (hroom : p.copy.room = m.message_.length)
    (hin : p.copy.InBounds data.length) (hdst : 0 < p.copy.count → 16 ≤ p.copy.dst)
    (hstop : stopOf m.segments_ ≤ stopOf p.segments) : (m.store data p).Headed header := by
  obtain ⟨h₁, h₂⟩ := Placement.message_middle hend (by rw [hroom, hbase]) hin hdst
  rw [hbase] at h₁ h₂
  exact ⟨h₂.trans h.header, h.full.trans h₁.ge, h₁.trans_lt h.small,
    h₁.le.trans (h.reach.trans (Nat.add_le_add_left hstop 16))⟩

/-- In front of a next segment, where nothing in front overlaps. -/
theorem Headed.placeBefore {next : Segment} (h : m.Headed header)
    (hfits : 16 + s + size < 2 ^ 32) (hS : m.segments_ = pre ++ post)
    (hnext : post.head? = some next)
    (hin : (m.placeBefore s size pre post next).copy.InBounds data.length) :
    (m.store data (m.placeBefore s size pre post next)).Headed header := by
  have hu : u32 (16 + s) = 16 + s := u32_of_lt (by omega)
  obtain ⟨ys, rfl⟩ := List.head?_eq_some_iff.mp hnext
  unfold placeBefore at hin ⊢
  simp only at hin ⊢
  split_ifs at hin ⊢ with hlt
  · refine h.store_middle rfl rfl rfl hin (fun _ => by simp only [hu]; omega) ?_
    rw [hS]
    simp only [stopOf, stop_append_cons, stop_cons, le_refl]
  · refine h.store_middle rfl rfl rfl hin (fun _ => by simp only [hu]; omega) ?_
    rw [hS]
    exact stopOf_le_stopOf_insert _ _

/-- Between two segments, the first of which overlaps. -/
theorem Headed.placeBetween {prev next : Segment} (h : m.Headed header)
    (hfits : 16 + s + size < 2 ^ 32) (hS : m.segments_ = pre ++ post)
    (hdata : data.length = 20 + size)
    (hin : (m.placeBetween s size pre post prev next).copy.InBounds data.length) :
    (m.store data (m.placeBetween s size pre post prev next)).Headed header := by
  have hstop : ∀ x, stopOf m.segments_ ≤ stopOf (OrderedSet.insert Segment.lt (pre ++ post) x) :=
    fun x => hS ▸ stopOf_le_stopOf_insert _ x
  unfold TpMessage.placeBetween at hin ⊢
  simp only at hin ⊢
  split_ifs at hin ⊢ with hlt
  all_goals
    refine h.store_middle rfl rfl rfl hin (fun hpos => ?_) (hstop _)
    -- the bytes that are read are payload, so the offset of the first one is inside the segment
    have hbytes := hin.2.resolve_left (Nat.pos_iff_ne_zero.mp hpos)
    simp only at hpos hbytes ⊢
    rw [u32_of_lt] <;> omega

/-- **Every branch of `add_segment` keeps the header.**
Source: `tp_message.cpp`, lines 78–188 -/
theorem Headed.store (h : m.Headed header) (hfit : m.Fits data)
    (hp : m.placement? data = some p) (hin : p.copy.InBounds data.length) :
    (m.store data p).Headed header := by
  have hfits := hfit (by simp [Accepts, hp])
  obtain ⟨hlen, -, pre, post, hemp, rfl⟩ := placement?_eq_some.mp hp
  have hgap := emplace_eq_some hemp
  have hdata := length_eq_payloadSize hlen
  unfold place at hin ⊢
  rcases hn : post.head? with _ | next
  · obtain rfl := List.head?_eq_none_iff.mp hn
    exact h.placeLast hfits hgap hin
  · rcases hl : pre.getLast? with _ | prev
    · simp only [hn, hl] at hin ⊢
      exact h.placeBefore hfits hgap.split hn hin
    · simp only [hn, hl] at hin ⊢
      split_ifs at hin ⊢ with hlt
      · exact h.placeBefore hfits hgap.split hn hin
      · exact h.placeBetween hfits hgap.split hdata hin

end TpMessage

end branches

/-! ### The fields of the header -/

section fields

variable {d data msg : List UInt8}

/-- The header of a message is that of its first datagram up to the message type. -/
theorem getElem?_messageHeader (h : 20 ≤ d.length) {i : ℕ} (hi : i < 16) (h14 : i ≠ 14) :
    (messageHeader d)[i]? = d[i]? := by
  unfold messageHeader
  rw [getElem?_overwrite_of_not_mem (by simp; omega) (by simp; omega), List.getElem?_take, if_pos hi]

theorem byteAt_messageHeader_type (h : 20 ≤ d.length) :
    byteAt (messageHeader d) 14 = tpFlagUnset (byteAt d 14) := by
  have hget : (messageHeader d)[14]? = [tpFlagUnset (byteAt d 14)][14 - 14]? :=
    getElem?_overwrite_of_mem (by simp; omega) le_rfl (by simp)
  exact byteAt_eq_of_getElem? hget

/-- The length and the return code of a completed message. -/
theorem completedMessage_fields (data : List UInt8) (h : 16 ≤ msg.length)
    (hsmall : msg.length < 2 ^ 32) : readUint32Be (completedMessage msg data) 4 = msg.length - 8 ∧
      byteAt (completedMessage msg data) 15 = byteAt data 15 := by
  have hlen : (overwrite msg 4 (uint32Bytes (msg.length - 8))).length = msg.length :=
    length_overwrite (by rw [length_uint32Bytes]; omega)
  unfold completedMessage
  constructor
  · refine readUint32Be_of_bytes (by omega) fun k hk => ?_
    rw [getElem?_overwrite_of_not_mem (by rw [hlen]; simpa using h) (by omega),
      getElem?_overwrite_of_mem (by rw [length_uint32Bytes]; omega) (by omega)
        (by rw [length_uint32Bytes]; omega)]
    congr 1
    omega
  · have hget : (overwrite (overwrite msg 4 (uint32Bytes (msg.length - 8))) 15
        [byteAt data 15])[15]? = [byteAt data 15][15 - 15]? :=
      getElem?_overwrite_of_mem (by rw [hlen]; simpa using h) le_rfl (by simp)
    have hbyte := byteAt_eq_of_getElem? hget
    exact hbyte

/-- The other bytes of the header stay. -/
theorem getElem?_completedMessage_header (h : 16 ≤ msg.length) {i : ℕ} (hi : i < 4 ∨ 8 ≤ i)
    (h15 : i < 15) : (completedMessage msg data)[i]? = msg[i]? := by
  have hlen : (overwrite msg 4 (uint32Bytes (msg.length - 8))).length = msg.length :=
    length_overwrite (by rw [length_uint32Bytes]; omega)
  unfold completedMessage
  rw [getElem?_overwrite_of_not_mem (by rw [hlen]; simpa using h) (Or.inl h15),
    getElem?_overwrite_of_not_mem (by rw [length_uint32Bytes]; omega)
      (by rw [length_uint32Bytes]; omega)]

/-- The message id determines the fields that it is packed from. -/
theorem messageIdOf_inj (h : messageIdOf d = messageIdOf data) :
    readUint16Be d 0 = readUint16Be data 0 ∧ readUint16Be d 2 = readUint16Be data 2 ∧
      readUint16Be d 8 = readUint16Be data 8 ∧ byteAt d 13 = byteAt data 13 ∧
      tpFlagUnset (byteAt d 14) = tpFlagUnset (byteAt data 14) := by
  obtain ⟨h₁, h₂, h₃, h₄, h₅⟩ := tpMessageId_inj (readUint16Be_lt _ _) (readUint16Be_lt _ _)
    (readUint16Be_lt _ _) (readUint16Be_lt _ _) (UInt8.toNat_lt _) (UInt8.toNat_lt _)
    (UInt8.toNat_lt _) (UInt8.toNat_lt _) h
  exact ⟨h₁, h₂, h₃, UInt8.toNat_inj.mp h₄, UInt8.toNat_inj.mp h₅⟩

/-- **The header of the message `msg` follows the segment `data`**: same service, method, client,
session and interface version, its message type without the TP flag, its return code, and the length
of the message. -/
structure HeaderFollows (data msg : List UInt8) : Prop where
  full : 16 ≤ msg.length
  service : readUint16Be msg 0 = readUint16Be data 0
  method : readUint16Be msg 2 = readUint16Be data 2
  client : readUint16Be msg 8 = readUint16Be data 8
  session : readUint16Be msg 10 = readUint16Be data 10
  interfaceVersion : byteAt msg 13 = byteAt data 13
  messageType : byteAt msg 14 = tpFlagUnset (byteAt data 14)
  length : readUint32Be msg 4 = msg.length - 8
  returnCode : byteAt msg 15 = byteAt data 15

/-- A completed message with the header of `d` follows a segment with the key and session of `d`. -/
theorem headerFollows_completedMessage (hd : 20 ≤ d.length) (hheader : msg.take 16 = messageHeader d)
    (hfull : 16 ≤ msg.length) (hsmall : msg.length < 2 ^ 32)
    (hid : messageIdOf d = messageIdOf data) (hsession : sessionOf d = sessionOf data) :
    HeaderFollows data (completedMessage msg data) := by
  obtain ⟨h₁, h₂, h₃, h₄, h₅⟩ := messageIdOf_inj hid
  obtain ⟨hlength, hreturn⟩ := completedMessage_fields data hfull hsmall
  have htake : ∀ i < 16, msg[i]? = (messageHeader d)[i]? := by
    intro i hi
    rw [← hheader, List.getElem?_take, if_pos hi]
  have hbytes : ∀ i < 14, i < 4 ∨ 8 ≤ i → (completedMessage msg data)[i]? = d[i]? := by
    intro i hi hpos
    rw [getElem?_completedMessage_header hfull hpos (by omega), htake i (by omega),
      getElem?_messageHeader hd (by omega) (by omega)]
  have hpair : ∀ pos, pos + 1 < 14 → pos + 1 < 4 ∨ 8 ≤ pos →
      readUint16Be (completedMessage msg data) pos = readUint16Be d pos := by
    intro pos hpos hout
    exact readUint16Be_congr fun k hk => hbytes _ (by omega) (by omega)
  refine ⟨?_, (hpair 0 (by omega) (by omega)).trans h₁, (hpair 2 (by omega) (by omega)).trans h₂,
    (hpair 8 (by omega) (by omega)).trans h₃, (hpair 10 (by omega) (by omega)).trans hsession,
    (byteAt_eq_of_getElem? (hbytes 13 (by omega) (by omega))).trans h₄, ?_, ?_, hreturn⟩
  · rwa [length_completedMessage hfull]
  · have h14 : (completedMessage msg data)[14]? = (messageHeader d)[14]? := by
      rw [getElem?_completedMessage_header hfull (by omega) (by omega), htake 14 (by omega)]
    rw [byteAt_eq_of_getElem? h14, byteAt_messageHeader_type hd, h₅]
  · rw [length_completedMessage hfull, hlength]

end fields

/-! ### Messages and runs -/

section steps

variable {m m' : TpMessage} {header data : List UInt8} {ret : Bool} {max : ℕ} {now : ℤ}

namespace TpMessage

/-- A step keeps the header, or completes the message and updates the header. -/
theorem Headed.addSegment (h : m.Headed header) (hfit : m.Fits data)
    (hs : m.addSegment data = .ok (ret, m')) : (ret = false ∧ m'.Headed header) ∨
      (ret = true ∧ ∃ msg, m'.message_ = completedMessage msg data ∧ msg.take 16 = header ∧
        16 ≤ msg.length ∧ msg.length < 2 ^ 32) := by
  rcases hp : m.placement? data with _ | p
  · rw [addSegment_of_none hp] at hs
    cases hs
    exact Or.inl ⟨rfl, h⟩
  · by_cases hin : p.copy.InBounds data.length
    · have hstore := h.store hfit hp hin
      rw [addSegment_of_inBounds hp hin] at hs
      rcases finish_eq_ok hs with ⟨rfl, -, -, -, rfl⟩ | ⟨rfl, rfl, -⟩
      · exact Or.inr ⟨rfl, _, rfl, hstore.header, hstore.full, hstore.small⟩
      · exact Or.inl ⟨rfl, hstore⟩
    · rw [addSegment_of_not_inBounds hp hin] at hs
      cases hs

/-- A first datagram of at least 20 bytes leaves its header, accepted or not. -/
theorem Headed.new (hlen : 20 ≤ data.length) (hfit : (blank max now).Fits data) :
    (new data max now).Headed (messageHeader data) := by
  have hheader := length_messageHeader hlen
  by_cases hacc : (blank max now).Accepts data
  · have hfits := hfit hacc
    have hdata := length_eq_payloadSize hlen
    obtain ⟨base, hmsg, hbase, htake⟩ := new_message hacc hfits
    have hend := le_end_segmentOf (by omega : offsetOf data + payloadSize data < 2 ^ 32)
    have hsize : (TpMessage.new data max now).message_.length =
        16 + offsetOf data + payloadSize data := by
      rw [hmsg, length_append, hbase, length_slice (by omega)]
    have hstop : stopOf (TpMessage.new data max now).segments_ =
        (segmentOf (offsetOf data) (payloadSize data)).end_ + 1 := by
      rw [new_of_accepts hacc]
      rfl
    refine ⟨?_, by omega, by omega, by omega⟩
    rw [hmsg, take_append_of_le_length (by omega), htake]
  · rw [new_of_not_accepts hacc, if_neg (by omega)]
    exact ⟨take_of_length_le hheader.le, hheader.ge, by simp only [hheader]; norm_num,
      by simp only [hheader]; omega⟩

end TpMessage

/-- The entry was started by a datagram with its id and session, and still has its header. -/
def Entry.HeadedBy (id : ℕ) (e : Entry) : Prop :=
  ∃ d : List UInt8, 20 ≤ d.length ∧ messageIdOf d = id ∧ sessionOf d = e.1 ∧
    e.2.Headed (messageHeader d)

/-- **The step lemma for an entry.** -/
theorem entryStep_headed {e : Option Entry} {out : (Bool × List UInt8) × Option Entry}
    (he : ∀ e' ∈ e, Entry.HeadedBy (messageIdOf data) e')
    (hmeets : entryMeets TpMessage.Fits max data now e) (hs : entryStep max data now e = .ok out) :
    (∀ e' ∈ out.2, Entry.HeadedBy (messageIdOf data) e') ∧
      (out.1.1 = true → HeaderFollows data out.1.2) := by
  have hnew : 20 ≤ data.length ∧ (TpMessage.blank max now).Fits data →
      Entry.HeadedBy (messageIdOf data) (sessionOf data, TpMessage.new data max now) :=
    fun h => ⟨data, h.1, rfl, rfl, TpMessage.Headed.new h.1 h.2⟩
  rcases e with _ | ⟨session, m⟩
  · cases hs
    exact ⟨by simpa using hnew hmeets, by simp⟩
  · simp only [entryMeets] at hmeets
    simp only [entryStep] at hs
    split_ifs at hmeets hs with hsession
    · obtain ⟨d, hd, hid, hsess, hheaded⟩ := he _ rfl
      rcases hadd : m.addSegment data with err | ⟨ret, m'⟩
      · rw [hadd] at hs
        cases hs
      · rw [hadd] at hs
        rcases hheaded.addSegment hmeets hadd with ⟨rfl, hm'⟩ | ⟨rfl, msg, hmsg, h₁, h₂, h₃⟩
        · cases hs
          exact ⟨by simpa using ⟨d, hd, hid, hsess, hm'⟩, by simp⟩
        · cases hs
          refine ⟨by simp, fun _ => ?_⟩
          simp only [if_true, hmsg]
          exact headerFollows_completedMessage hd h₁ h₂ h₃ hid (hsess.trans hsession)
    · cases hs
      exact ⟨by simpa using hnew hmeets, by simp⟩

end steps

section runs

variable {Address : Type*} [DecidableEq Address]

/-- Every entry still has the header of the datagram that started it. -/
def TpReassembler.Headed (r : TpReassembler Address) : Prop :=
  r.AllEntries fun k e => Entry.HeadedBy k.2.2 e

/-- If the call delivers a message, its header follows the segment of the call. -/
def TpReassembler.DeliversHeader (r : TpReassembler Address) : Event Address → Prop
  | .segment data address port now => ∀ msg r',
      r.step (.segment data address port now) = .ok (.result true msg, r') →
      HeaderFollows data msg
  | .sweep _ => True

/-- **The step lemma**: what a call does to the headers. -/
theorem TpReassembler.Headed.step {r : TpReassembler Address} (hr : r.Headed) {e : Event Address}
    (h : r.Meets TpMessage.Fits e) :
    (∀ o r', r.step e = .ok (o, r') → r'.Headed) ∧ r.DeliversHeader e := by
  have hentry : ∀ data address port now, e = .segment data address port now → 16 ≤ data.length →
      ∀ out, entryStep r.maxMessageSize_ data now
        (get₃ r.tpMessages_ (keyOf data address port)) = .ok out →
      (∀ e' ∈ out.2, Entry.HeadedBy (messageIdOf data) e') ∧
        (out.1.1 = true → HeaderFollows data out.1.2) := by
    rintro data address port now rfl hlen out hout
    exact entryStep_headed (fun e' he' => hr (keyOf data address port) e' he') (h hlen) hout
  refine ⟨fun o r' hs => TpReassembler.AllEntries.step hr hs fun data address port now he hlen out
    hout => (hentry data address port now he hlen out hout).1, ?_⟩
  rcases e with ⟨data, address, port, now⟩ | now
  · intro msg r' hs
    by_cases hlen : data.length < 16
    · cases hs.symm.trans (r.step_segment_short address port now hlen)
    · have hlen := Nat.le_of_not_lt hlen
      obtain ⟨out, hout, hresult, -⟩ := (TpReassembler.step_segment_eq_ok hlen).mp hs
      obtain ⟨htrue, rfl⟩ := Answer.result.inj hresult
      exact (hentry data address port now rfl hlen out hout).2 htrue.symm
  · trivial

/-- **Header integrity**: in every run whose messages are started by datagrams with a TP header and
stay below the 32-bit limit, every message that is delivered has the header of the segment that
completed it: service, method, client, session, interface version, message type without the TP flag
and return code, and its length field is its size without the first 8 bytes.
Source: `tp_reassembler.cpp`, `process_tp_message`; `tp_message.cpp`, the constructor and
`add_segment` -/
theorem completed_header_follows (max : ℕ) (events : List (Event Address))
    (h : AllSteps TpReassembler.step (TpReassembler.Meets TpMessage.Fits) (TpReassembler.new max)
      events) :
    AllSteps TpReassembler.step TpReassembler.DeliversHeader (TpReassembler.new max) events :=
  AllSteps.of_invariant TpReassembler.Headed
    (fun _ _ o r' hr hC hs => (hr.step hC).1 o r' hs) (fun _ _ hr hC => (hr.step hC).2)
    (TpReassembler.allEntries_new _ max) h

end runs

/-- A first datagram that is not accepted, and then a message in reverse order. -/
theorem completed_header_follows_reversed :
    AllSteps TpReassembler.step TpReassembler.DeliversHeader (TpReassembler.new 5000)
      [Event.segment (requestSegment 0 false 7 1) 1 30509 0,
        .segment (requestSegment 16 true 5 2) 1 30509 10,
        .segment (requestSegment 0 false 16 3) 1 30509 20] :=
  completed_header_follows 5000 _ (by decide +kernel)

/-- A datagram of 16 bytes starts a message without a header. The segment that completes it is
delivered without one: its payload is taken for the header. -/
theorem short_datagram_loses_header : (∃ r, run TpReassembler.step (TpReassembler.new 5000)
        [Event.segment ((requestSegment 0 true 16 9).take 16) 1 30509 0,
          .segment (requestSegment 0 true 16 9) 1 30509 10] =
      .ok ([.result false [], .result true ([9, 9, 9, 9, 0, 0, 0, 8] ++ List.replicate 7 9 ++ [0])],
        r)) ∧ ¬ AllSteps TpReassembler.step TpReassembler.DeliversHeader (TpReassembler.new 5000)
      [Event.segment ((requestSegment 0 true 16 9).take 16) 1 30509 0,
        .segment (requestSegment 0 true 16 9) 1 30509 10] := by
  refine ⟨⟨_, rfl⟩, fun h => ?_⟩
  have h : AllSteps _ _ _ ([_] ++ [_]) := h
  have hservice := (h.of_run_concat rfl _ _ rfl).service
  revert hservice
  decide +kernel

end SomeipTunnel.Tp
