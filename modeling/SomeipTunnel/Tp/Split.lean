import SomeipTunnel.Tp.Wire

/-!
# `tp_split_message`: cutting a message into segments

The sender's side (`tp.cpp`). The loop runs over the payload in steps of the segment length and
builds one datagram in each round (`splitSegment`): the header of the message with the TP flag set,
the TP header with the payload offset and the more-segments bit, a part of the payload, and the
length field of the datagram. The model of the loop has fuel and answers `none` when it runs out:
for a segment length of 0 the source does not terminate. `tpSplitMessage_eq_some` says that every
other segment length gives the segments `segmentAt data maxSegmentLength i`.
-/

namespace SomeipTunnel.Tp

open Buffer

/-- The header of a segment: copy the header, change the message type.
Source: `tp.cpp`, `tp_split_message`, lines 40–43 -/
def splitHeader (data : List UInt8) : List UInt8 :=
  overwrite (data.take 16) 14 [tpFlagSet (byteAt data 14)]

/-- A segment before its length is updated: insert tp_header and payload.
Source: `tp.cpp`, `tp_split_message`, lines 47–61 -/
def splitBody (data : List UInt8) (offset : ℕ) (isLastSegment : Bool) (payload : List UInt8) :
    List UInt8 :=
  splitHeader data ++ (uint32Bytes (offset ||| if !isLastSegment then 1 else 0) ++ payload)

/-- One round of the loop: the segment with its length.
Source: `tp.cpp`, `tp_split_message`, lines 38–65 -/
def splitSegment (data : List UInt8) (offset : ℕ) (isLastSegment : Bool)
    (payload : List UInt8) : List UInt8 :=
  let msg := splitBody data offset isLastSegment payload
  overwrite msg 4 (uint32Bytes (msg.length - 8))

/-- Source: `tp.cpp`, `tp_split_message`, the loop -/
def splitLoop (data : List UInt8) (maxSegmentLength : ℕ) : ℕ → ℕ → Option (List (List UInt8))
  | 0, _ => none
  | fuel + 1, currentOffset =>
      if currentOffset < data.length then
        let segmentEnd := currentOffset + maxSegmentLength
        let isLastSegment := decide (segmentEnd ≥ data.length)
        let payload := if isLastSegment then slice data currentOffset (data.length - currentOffset)
          else slice data currentOffset maxSegmentLength
        let segment := splitSegment data (currentOffset - 16) isLastSegment payload
        let nextOffset := if isLastSegment then data.length else segmentEnd
        (splitLoop data maxSegmentLength fuel nextOffset).map (segment :: ·)
      else some []

/-- Source: `tp.cpp`, `tp_split_message` -/
def tpSplitMessage (data : List UInt8) (maxSegmentLength : ℕ) : Option (List (List UInt8)) :=
  if data.length < 1416 then some []
  else splitLoop data maxSegmentLength (data.length + 1) 16

/-- The header of a request, for concrete runs. -/
def requestHeader : List UInt8 :=
  [0x12, 0x34, 0x00, 0x01, 0, 0, 0, 0, 0x00, 0x05, 0x00, 0x07, 1, 1, 0x00, 0x00]

/-- That request with `n` equal payload bytes. -/
def requestMessage (n : ℕ) (value : UInt8) : List UInt8 :=
  overwrite requestHeader 4 (uint32Bytes (n + 8)) ++ List.replicate n value

/-- A segment of that request with `n` equal payload bytes. -/
def requestSegment (offset : ℕ) (isLastSegment : Bool) (n : ℕ) (value : UInt8) : List UInt8 :=
  splitSegment requestHeader offset isLastSegment (List.replicate n value)

/-! ### One segment -/

section segment

variable {data : List UInt8} {offset k : ℕ} {last : Bool} {payload : List UInt8}

theorem length_splitHeader (h : 16 ≤ data.length) : (splitHeader data).length = 16 := by
  unfold splitHeader
  rw [length_overwrite] <;> simp <;> omega

theorem length_splitBody (h : 16 ≤ data.length) (offset : ℕ) (last : Bool) (payload : List UInt8) :
    (splitBody data offset last payload).length = 20 + payload.length := by
  simp only [splitBody, List.length_append, length_splitHeader h, length_uint32Bytes]
  omega

theorem length_splitSegment (h : 16 ≤ data.length) :
    (splitSegment data offset last payload).length = 20 + payload.length := by
  have hlen := length_splitBody h offset last payload
  unfold splitSegment
  rw [length_overwrite (by rw [length_uint32Bytes]; omega), hlen]

/-- Outside the length field a segment is what the loop has inserted. -/
theorem getElem?_splitSegment (h : 16 ≤ data.length) (hk : k < 4 ∨ 8 ≤ k) :
    (splitSegment data offset last payload)[k]? = (splitBody data offset last payload)[k]? := by
  have hlen := length_splitBody h offset last payload
  unfold splitSegment
  rw [getElem?_overwrite_of_not_mem (by rw [length_uint32Bytes]; omega)
    (by rw [length_uint32Bytes]; omega)]

/-- The header of a segment is that of the message, except for the message type and the length. -/
theorem getElem?_splitSegment_header (h : 16 ≤ data.length) (hk : k < 4 ∨ 8 ≤ k) (h16 : k < 16)
    (h14 : k ≠ 14) : (splitSegment data offset last payload)[k]? = data[k]? := by
  have hlen := length_splitHeader h
  rw [getElem?_splitSegment h hk, splitBody, List.getElem?_append_left (by omega), splitHeader,
    getElem?_overwrite_of_not_mem (by simp; omega) (by simp; omega), List.getElem?_take,
    if_pos h16]

theorem byteAt_splitSegment_type (h : 16 ≤ data.length) :
    byteAt (splitSegment data offset last payload) 14 = tpFlagSet (byteAt data 14) := by
  have hlen := length_splitHeader h
  have hget : (splitSegment data offset last payload)[14]? =
      [tpFlagSet (byteAt data 14)][14 - 14]? := by
    rw [getElem?_splitSegment h (by omega), splitBody, List.getElem?_append_left (by omega),
      splitHeader, getElem?_overwrite_of_mem (by simp; omega) le_rfl (by simp)]
  have hbyte := byteAt_eq_of_getElem? hget
  exact hbyte

/-- The length field of a segment. -/
theorem readUint32Be_splitSegment_length (h : 16 ≤ data.length)
    (hp : 12 + payload.length < 2 ^ 32) :
    readUint32Be (splitSegment data offset last payload) 4 = 12 + payload.length := by
  have hlen := length_splitBody h offset last payload
  refine readUint32Be_of_bytes hp fun k hk => ?_
  unfold splitSegment
  rw [getElem?_overwrite_of_mem (by rw [length_uint32Bytes]; omega) (by omega)
    (by rw [length_uint32Bytes]; omega), hlen]
  congr 2
  · omega
  · omega

/-- The TP header of a segment. -/
theorem readUint32Be_splitSegment_tp (h : 16 ≤ data.length) (ho : offset % 16 = 0)
    (hlt : offset < 2 ^ 32) : readUint32Be (splitSegment data offset last payload) 16 =
      offset ||| if !last then 1 else 0 := by
  have hlen := length_splitHeader h
  refine readUint32Be_of_bytes (tpHeader_or ho hlt (!last)).1 fun k hk => ?_
  rw [getElem?_splitSegment h (by omega), splitBody, List.getElem?_append_right (by omega), hlen,
    List.getElem?_append_left (by simp; omega)]
  congr 1
  omega

theorem getElem?_splitSegment_payload (h : 16 ≤ data.length) :
    (splitSegment data offset last payload)[20 + k]? = payload[k]? := by
  have hlen := length_splitHeader h
  rw [getElem?_splitSegment h (by omega), splitBody, List.getElem?_append_right (by omega), hlen,
    List.getElem?_append_right (by simp; omega)]
  congr 1
  simp only [length_uint32Bytes]
  omega

end segment

/-! ### The loop -/

/-- The segment that the loop builds in its round `i`. -/
def segmentAt (data : List UInt8) (maxSegmentLength i : ℕ) : List UInt8 :=
  splitSegment data (i * maxSegmentLength)
    (decide (data.length ≤ 16 + i * maxSegmentLength + maxSegmentLength))
    (slice data (16 + i * maxSegmentLength)
      (min maxSegmentLength (data.length - (16 + i * maxSegmentLength))))

/-- The number of rounds of the loop. -/
def segmentCount (data : List UInt8) (maxSegmentLength : ℕ) : ℕ :=
  (data.length - 16 + maxSegmentLength - 1) / maxSegmentLength

section loop

variable {data : List UInt8} {L : ℕ}

/-- The last round is the one that reaches the end of the data. -/
theorem segmentCount_spec (h : 16 < data.length) (hL : 0 < L) :
    0 < segmentCount data L ∧ data.length ≤ 16 + segmentCount data L * L ∧
      16 + (segmentCount data L - 1) * L < data.length := by
  have hdiv := Nat.div_add_mod (data.length - 16 + L - 1) L
  have hmod := Nat.mod_lt (data.length - 16 + L - 1) hL
  have hpos : 0 < segmentCount data L := Nat.div_pos (by omega) hL
  have hmul : (segmentCount data L - 1) * L = segmentCount data L * L - L := by
    rw [Nat.sub_mul, Nat.one_mul]
  rw [hmul]
  unfold segmentCount at hpos ⊢
  rw [Nat.mul_comm] at hdiv
  exact ⟨hpos, by omega, by omega⟩

/-- The round of an offset in front of the end. -/
theorem lt_of_lt_segmentCount {i : ℕ} (h : 16 < data.length) (hL : 0 < L)
    (hi : i < segmentCount data L) : 16 + i * L < data.length := by
  have hspec := segmentCount_spec h hL
  have hle : i * L ≤ (segmentCount data L - 1) * L := Nat.mul_le_mul_right L (by omega)
  omega

/-- `n` rounds from round `i` on. -/
theorem splitLoop_eq (hL : 0 < L) (n i fuel : ℕ) (hfuel : n < fuel)
    (hend : data.length ≤ 16 + (i + n) * L) (hlast : n = 0 ∨ 16 + (i + n - 1) * L < data.length) :
    splitLoop data L fuel (min (16 + i * L) data.length) =
      some ((List.range' i n).map (segmentAt data L)) := by
  induction n generalizing i fuel with
  | zero =>
      obtain ⟨fuel, rfl⟩ : ∃ f, fuel = f + 1 := ⟨fuel - 1, by omega⟩
      have hmin : min (16 + i * L) data.length = data.length := by
        rw [Nat.add_zero] at hend
        omega
      simp [splitLoop, hmin]
  | succ n ih =>
      obtain ⟨fuel, rfl⟩ : ∃ f, fuel = f + 1 := ⟨fuel - 1, by omega⟩
      have hlast := hlast.resolve_left (by omega)
      have hle : i * L ≤ (i + (n + 1) - 1) * L := Nat.mul_le_mul_right L (by omega)
      have hmin : min (16 + i * L) data.length = 16 + i * L := by omega
      have hnext : (if decide (16 + i * L + L ≥ data.length) = true then data.length
          else 16 + i * L + L) = min (16 + (i + 1) * L) data.length := by
        rw [Nat.add_mul, Nat.one_mul]
        split_ifs with hl
        · simp only [decide_eq_true_eq] at hl
          omega
        · simp only [decide_eq_true_eq] at hl
          omega
      have ih := ih (i + 1) fuel (by omega)
        (by rw [Nat.add_right_comm, Nat.add_assoc]; exact hend)
        (by
          right
          rw [Nat.add_right_comm, Nat.add_assoc]
          exact hlast)
      have hsegment : splitSegment data (i * L) (decide (16 + i * L + L ≥ data.length))
          (if decide (16 + i * L + L ≥ data.length) = true
            then slice data (16 + i * L) (data.length - (16 + i * L))
            else slice data (16 + i * L) L) = segmentAt data L i := by
        congr 1
        split_ifs with hl
        · simp only [decide_eq_true_eq] at hl
          rw [Nat.min_eq_right (by omega)]
        · simp only [decide_eq_true_eq] at hl
          rw [Nat.min_eq_left (by omega)]
      simp only [splitLoop, hmin, if_pos (by omega : 16 + i * L < data.length), hnext, ih,
        Option.map_some, List.range'_succ, List.map_cons, Nat.add_sub_cancel_left, hsegment]

/-- **The segments of a message**: the loop ends and builds one segment in each round.
Source: `tp.cpp`, `tp_split_message` -/
theorem tpSplitMessage_eq_some (h : 1416 ≤ data.length) (hL : 0 < L) : tpSplitMessage data L =
      some ((List.range (segmentCount data L)).map (segmentAt data L)) := by
  obtain ⟨hpos, hend, hlast⟩ := segmentCount_spec (by omega : 16 < data.length) hL
  have hcount : segmentCount data L - 1 ≤ (segmentCount data L - 1) * L :=
    Nat.le_mul_of_pos_right _ hL
  have hloop := splitLoop_eq hL (segmentCount data L) 0 (data.length + 1) (by omega)
    (by rwa [Nat.zero_add]) (Or.inr (by rwa [Nat.zero_add]))
  rw [Nat.zero_mul, Nat.add_zero, Nat.min_eq_left (by omega)] at hloop
  rw [tpSplitMessage, if_neg (by omega), hloop, List.range_eq_range']

/-- The segments of the loop are built from the header of the message. -/
theorem exists_of_mem_splitLoop {fuel offset : ℕ} {segments : List (List UInt8)}
    (h : splitLoop data L fuel offset = some segments) {segment : List UInt8}
    (hs : segment ∈ segments) : ∃ o last payload, segment = splitSegment data o last payload := by
  induction fuel generalizing offset segments with
  | zero => cases h
  | succ fuel ih =>
      unfold splitLoop at h
      split_ifs at h with hlt
      · obtain ⟨rest, hrest, rfl⟩ := Option.map_eq_some_iff.mp h
        rcases List.mem_cons.mp hs with rfl | hs
        · exact ⟨_, _, _, rfl⟩
        · exact ih hrest hs
      · cases h
        cases hs

/-- A message that is long enough to be split has a segment, and each has the service and the
method of the message. -/
theorem tpSplitMessage_segments (h : 1416 ≤ data.length) {segments : List (List UInt8)}
    (hsplit : tpSplitMessage data L = some segments) :
    segments ≠ [] ∧ ∀ segment ∈ segments, 4 ≤ segment.length ∧
      ∀ pos < 3, readUint16Be segment pos = readUint16Be data pos := by
  rw [tpSplitMessage, if_neg (by omega)] at hsplit
  constructor
  · rw [splitLoop, if_pos (by omega)] at hsplit
    obtain ⟨rest, -, rfl⟩ := Option.map_eq_some_iff.mp hsplit
    exact List.cons_ne_nil _ _
  · intro segment hs
    obtain ⟨o, last, payload, rfl⟩ := exists_of_mem_splitLoop hsplit hs
    have hbyte : ∀ k < 4, byteAt (splitSegment data o last payload) k = byteAt data k :=
      fun k hk => byteAt_eq_of_getElem?
        (getElem?_splitSegment_header (by omega) (.inl hk) (by omega) (by omega))
    refine ⟨by rw [length_splitSegment (by omega)]; omega, fun pos hpos => ?_⟩
    rw [readUint16Be, readUint16Be, hbyte pos (by omega), hbyte (pos + 1) (by omega)]

end loop

end SomeipTunnel.Tp
