import SomeipTunnel.Tp.MessageSafety

/-!
# Segment lengths from the configuration

`load_someip_tp_for_service` reads a `max-segment-length` for a method and rounds it down to a
multiple of 16. `tp_split_message` advances by this length, and `check_lengths` of the receiver does
not take segments of more than 1392 bytes. Neither the loader nor the splitter knows that limit, and
neither looks at a length of 0.

* `checkLengths_eq`: the tests of the receiver are those of the datagram alone, `formatTests`, and
  those of the receive limit.
* `splitLoop_of_zero`: with a length of 0 the loop does not end, whatever the fuel.
* `segmentation_iff`: the splitter ends with segments that pass the tests of the datagram and together
  have the payload of the message iff the configured value is at least 16 and less than 1408.

Source: vsomeip/implementation/configuration/src/configuration_impl.cpp, tp.cpp, tp_message.cpp
-/

namespace SomeipTunnel.Tp

open Buffer List

/-! ### The configured length and the tests of the receiver -/

/-- The segment length for a configured value: "Segment length must be multiple of 16. Ensure this by
subtracting the rest."
Source: `configuration_impl.cpp`, `load_someip_tp_for_service` -/
def loadMaxSegmentLength (value : UInt16) : UInt16 :=
  let itsRest := value % 16
  if itsRest ≠ 0 then value - itsRest else value

/-- The tests of `check_lengths` that do not depend on the receive limit. -/
def formatTests (data : List UInt8) (segmentSize : ℕ) (moreFragments : Bool) : Bool :=
  let itsLength := readUint32Be data 4
  if !tpFlagIsSet (byteAt data 14) then false
  else if data.length ≠ u32 (itsLength + 8) then false
  else if segmentSize ≠ u32Sub (u32Sub itsLength 4) 8 then false
  else if segmentSize > 1392 then false
  else if moreFragments ∧ segmentSize % 16 > 0 then false
  else true

/-- The tests of `check_lengths` for the receive limit. -/
def TpMessage.limitTests (m : TpMessage) (data : List UInt8) (segmentSize : ℕ) : Bool :=
  if u32 (m.currentMessageSize_ + segmentSize) > m.maxMessageSize_ ∨
      u32 (m.currentMessageSize_ + segmentSize) < segmentSize then false
  else if u32 (getOffset (readUint32Be data 16) + segmentSize) > m.maxMessageSize_ ∨
      u32 (getOffset (readUint32Be data 16) + segmentSize) < segmentSize then false
  else true

/-- `check_lengths` makes both groups of tests. -/
theorem checkLengths_eq (m : TpMessage) (data : List UInt8) (segmentSize : ℕ)
    (moreFragments : Bool) : m.checkLengths data segmentSize moreFragments =
      (formatTests data segmentSize moreFragments && m.limitTests data segmentSize) := by
  unfold TpMessage.checkLengths formatTests TpMessage.limitTests
  dsimp only
  split_ifs <;> rfl

/-- The segment passes the tests of the receiver that do not depend on its limit. -/
def PassesFormat (segment : List UInt8) : Prop :=
  formatTests segment (payloadSize segment) (moreSegments (readUint32Be segment 16)) = true

instance (segment : List UInt8) : Decidable (PassesFormat segment) :=
  inferInstanceAs (Decidable (_ = true))

theorem toNat_loadMaxSegmentLength (value : UInt16) :
    (loadMaxSegmentLength value).toNat = value.toNat / 16 * 16 := by
  have hmod : (value % 16).toNat = value.toNat % 16 := rfl
  have hle : value % 16 ≤ value := by
    rw [UInt16.le_iff_toNat_le, hmod]
    exact Nat.mod_le _ _
  unfold loadMaxSegmentLength
  dsimp only
  split_ifs with h
  · rw [UInt16.toNat_sub_of_le _ _ hle, hmod]
    omega
  · have hzero : value.toNat % 16 = 0 := by
      rw [← hmod, not_not.mp h]
      rfl
    omega

/-! ### The segments of the loop -/

section loop

variable {data : List UInt8} {L : ℕ}

/-- A length of 0 does not get on. -/
theorem splitLoop_of_zero (h : 16 < data.length) (fuel : ℕ) : splitLoop data 0 fuel 16 = none := by
  induction fuel with
  | zero => rfl
  | succ fuel ih =>
      have hnot : ¬ 16 + 0 ≥ data.length := by omega
      simp only [splitLoop, if_pos h, decide_eq_false hnot, Bool.false_eq_true, if_false,
        Nat.add_zero, ih, Option.map_none]

theorem length_segmentAt_payload {i : ℕ} (hi : 16 + i * L < data.length) :
    (slice data (16 + i * L) (min L (data.length - (16 + i * L)))).length =
      min L (data.length - (16 + i * L)) :=
  length_slice (by omega)

/-- The payload of a segment is its part of the message. -/
theorem drop_segmentAt (h : 16 ≤ data.length) (i : ℕ) : (segmentAt data L i).drop 20 =
      slice data (16 + i * L) (min L (data.length - (16 + i * L))) := by
  apply ext_getElem?
  intro k
  rw [List.getElem?_drop, segmentAt, getElem?_splitSegment_payload h]

/-- The parts from a round on are the rest of the message. -/
theorem flatMap_slices (n i : ℕ) (hend : data.length ≤ 16 + (i + n) * L) :
    (List.range' i n).flatMap (fun i =>
      slice data (16 + i * L) (min L (data.length - (16 + i * L)))) = data.drop (16 + i * L) := by
  induction n generalizing i with
  | zero =>
      rw [Nat.add_zero] at hend
      rw [List.range'_zero, flatMap_nil, drop_eq_nil_of_le hend]
  | succ n ih =>
      have hnext := ih (i + 1) (by rw [Nat.add_right_comm, Nat.add_assoc]; exact hend)
      rw [List.range'_succ, flatMap_cons, hnext, Nat.add_mul, Nat.one_mul, ← Nat.add_assoc]
      have hdrop : data.drop (16 + i * L + L) = (data.drop (16 + i * L)).drop L := by
        rw [drop_drop]
      rw [slice, hdrop]
      generalize hrest : data.drop (16 + i * L) = rest
      have hlength : data.length - (16 + i * L) = rest.length := by rw [← hrest, length_drop]
      rw [hlength]
      rcases Nat.le_total L rest.length with hle | hle
      · rw [Nat.min_eq_left hle, take_append_drop]
      · rw [Nat.min_eq_right hle, take_length, drop_eq_nil_of_le hle, append_nil]

/-- A segment of the loop passes the tests iff it is not too long. -/
theorem passesFormat_segmentAt_iff {i : ℕ} (hsize : data.length < 2 ^ 32)
    (hi : 16 + i * L < data.length) (hL : L % 16 = 0) (hL' : L < 2 ^ 16) :
    PassesFormat (segmentAt data L i) ↔ min L (data.length - (16 + i * L)) ≤ 1392 := by
  have h16 : 16 ≤ data.length := by omega
  have hslice := length_segmentAt_payload (L := L) hi
  have hshort : min L (data.length - (16 + i * L)) < 2 ^ 16 := by omega
  generalize hn : min L (data.length - (16 + i * L)) = n at hslice hshort ⊢
  have hlen : (segmentAt data L i).length = 20 + n := by
    rw [segmentAt, length_splitSegment h16, hn, hslice]
  have hpayload : payloadSize (segmentAt data L i) = n := by
    rw [payloadSize, hlen]
    omega
  have hfield : readUint32Be (segmentAt data L i) 4 = 12 + n := by
    rw [segmentAt, readUint32Be_splitSegment_length h16 (by rw [hn, hslice]; omega), hn, hslice]
  have hflag : tpFlagIsSet (byteAt (segmentAt data L i) 14) = true := by
    rw [segmentAt, byteAt_splitSegment_type h16, tpFlagIsSet_tpFlagSet]
  have ho : i * L % 16 = 0 := by
    rw [Nat.mul_mod, hL, Nat.mul_zero, Nat.zero_mod]
  have htp : readUint32Be (segmentAt data L i) 16 =
      i * L ||| if !decide (data.length ≤ 16 + i * L + L) then 1 else 0 :=
    readUint32Be_splitSegment_tp h16 ho (by omega)
  have hmore := (tpHeader_or ho (by omega : i * L < 2 ^ 32)
    (!decide (data.length ≤ 16 + i * L + L))).2.2
  -- only the last segment may have a length that is no multiple of 16
  have haligned : ¬ (moreSegments (readUint32Be (segmentAt data L i) 16) = true ∧ n % 16 > 0) := by
    rintro ⟨hm, hmod⟩
    rw [htp, hmore, Bool.not_eq_true', decide_eq_false_iff_not] at hm
    omega
  have hu₁ : u32 (12 + n + 8) = 20 + n := by
    rw [u32_of_lt (by omega)]
    omega
  have hu₂ : u32Sub (u32Sub (12 + n) 4) 8 = n := by
    have hinner : u32Sub (12 + n) 4 = 8 + n := by
      rw [u32Sub_of_le (by omega) (by omega)]
      omega
    rw [hinner, u32Sub_of_le (by omega) (by omega), Nat.add_sub_cancel_left]
  simp only [PassesFormat, formatTests, hpayload, hlen, hfield, hflag, hu₁, hu₂, haligned,
    Bool.not_true, Bool.false_eq_true, if_false, ne_eq, not_true]
  split_ifs with hlong <;> simp <;> omega

end loop

/-- **Which configured lengths give well-formed segments**, for every message that is long enough to
be split: the payloads are that of the message and each segment passes the tests of the receiver
that do not depend on its limit. -/
theorem segmentation_iff (value : UInt16) (data : List UInt8) (h : 1416 ≤ data.length)
    (hsize : data.length < 2 ^ 32) :
    (∃ segments, tpSplitMessage data (loadMaxSegmentLength value).toNat = some segments ∧
      (∀ segment ∈ segments, PassesFormat segment) ∧ segments.flatMap (·.drop 20) = data.drop 16) ↔
    16 ≤ value.toNat ∧ value.toNat < 1408 := by
  rw [toNat_loadMaxSegmentLength]
  generalize hL : value.toNat / 16 * 16 = L
  have hmod : L % 16 = 0 := by omega
  have hlt : L < 2 ^ 16 := by
    have hvalue := value.toNat_lt
    omega
  constructor
  · rintro ⟨segments, hsplit, hformat, -⟩
    have hpos : 0 < L := by
      rcases Nat.eq_zero_or_pos L with rfl | hpos
      · rw [tpSplitMessage, if_neg (by omega), splitLoop_of_zero (by omega)] at hsplit
        cases hsplit
      · exact hpos
    rw [tpSplitMessage_eq_some h hpos, Option.some.injEq] at hsplit
    subst hsplit
    -- the first segment is as long as the length allows
    have hcount := (segmentCount_spec (by omega : 16 < data.length) hpos).1
    have hfirst := hformat _ (mem_map_of_mem (mem_range.mpr hcount))
    rw [passesFormat_segmentAt_iff hsize (by omega) hmod hlt] at hfirst
    omega
  · rintro ⟨hlow, hhigh⟩
    have hpos : 0 < L := by omega
    refine ⟨_, tpSplitMessage_eq_some h hpos, ?_, ?_⟩
    · intro segment hsegment
      obtain ⟨i, hi, rfl⟩ := mem_map.mp hsegment
      have hi' := lt_of_lt_segmentCount (by omega) hpos (mem_range.mp hi)
      rw [passesFormat_segmentAt_iff hsize hi' hmod hlt]
      omega
    · have hend := (segmentCount_spec (by omega : 16 < data.length) hpos).2.1
      have hparts := flatMap_slices (segmentCount data L) 0 (by rwa [Nat.zero_add])
      rw [Nat.zero_mul, Nat.add_zero] at hparts
      simp only [flatMap_map, drop_segmentAt (by omega : 16 ≤ data.length),
        range_eq_range', hparts]

theorem segmentation_iff_default :
    (∃ segments, tpSplitMessage (requestMessage 3000 7) (loadMaxSegmentLength 1400).toNat =
      some segments ∧ (∀ segment ∈ segments, PassesFormat segment) ∧
      segments.flatMap (·.drop 20) = (requestMessage 3000 7).drop 16) ↔
    16 ≤ (1400 : UInt16).toNat ∧ (1400 : UInt16).toNat < 1408 :=
  segmentation_iff 1400 (requestMessage 3000 7) (by decide +kernel) (by decide +kernel)

/-- A configured value of 15 is rounded down to 0, and the loop over a message never ends; with a
value of 1408 there is a segment that the receiver does not take. -/
theorem segmentation_fails : (loadMaxSegmentLength 15).toNat = 0 ∧
      (∀ fuel, splitLoop (requestMessage 3000 7) 0 fuel 16 = none) ∧
      ∃ segments, tpSplitMessage (requestMessage 3000 7) (loadMaxSegmentLength 1408).toNat =
        some segments ∧ ∃ segment ∈ segments, ¬ PassesFormat segment := by
  have hlong : 1416 ≤ (requestMessage 3000 7).length := by decide +kernel
  have hlength : (loadMaxSegmentLength 1408).toNat = 1408 := by decide
  refine ⟨by decide, splitLoop_of_zero (by omega), ?_⟩
  rw [hlength]
  refine ⟨_, tpSplitMessage_eq_some hlong (by decide), segmentAt (requestMessage 3000 7) 1408 0,
    ?_, ?_⟩
  · exact mem_map_of_mem (mem_range.mpr (segmentCount_spec (by omega) (by decide)).1)
  · rw [passesFormat_segmentAt_iff (by decide +kernel) (by omega) (by decide) (by decide)]
    decide +kernel

end SomeipTunnel.Tp
